import AdOps.Bot

/-!
# What a handler reads off its command

A handler reads the arguments it needs and no others. Of all the names that an argument can have,
five are read by no handler: those of the head, since the platform and the verb were told by it
before, and those of the flags that shape the output afterwards. So two invocations that agree on
everything else run alike.

* **`window_congr`** — the window is told by four of the arguments.
* **`handle_congr`** — invocations that agree on what handlers read are handled alike.
-/

namespace AdOps

namespace Invocation

/-! ## Windows

A window is worked out from an interval token or a range of dates, and goes by the name that the
platform has for it. These are four arguments, besides the settings and the date of today. -/

/-- The names of the arguments that a window is worked out from. -/
def windowNames (p : Platform) : List String :=
  ["date_range", "time_range", "time_interval", p.windowAlias.name]

/-- **The window is told by four of the arguments.** -/
theorem window_congr {inv inv' : Invocation} (hplatform : inv.platform = inv'.platform)
    (hsettings : inv.settings = inv'.settings) (htoday : inv.today = inv'.today)
    (h : ∀ name ∈ windowNames inv.platform, inv.args.text? name = inv'.args.text? name) :
    inv.window = inv'.window := by
  have htoken : inv.intervalToken = inv'.intervalToken := by
    unfold intervalToken
    rw [h "time_range" (by simp [windowNames]), h "time_interval" (by simp [windowNames]),
      hsettings]
  have hbounds : inv.bounds? = inv'.bounds? := by
    unfold bounds?
    rw [h "date_range" (by simp [windowNames]), htoken, htoday]
  unfold window
  rw [hbounds, htoken, h inv.platform.windowAlias.name (by simp [windowNames]), hplatform]

/-! ## Agreement

What handlers do not read is a short list of names, so that agreement is stated for all others at
once, whichever handler it may be. -/

/-- The names of the arguments that no handler reads. -/
def unread : List String := ["platform", "command", "fields", "limit", "ignore_errors"]

/-- The invocations agree on everything that a handler reads. -/
structure Agrees (inv inv' : Invocation) : Prop where
  platform : inv.platform = inv'.platform
  verb : inv.command.verb = inv'.command.verb
  settings : inv.settings = inv'.settings
  today : inv.today = inv'.today
  args : ∀ name, name ∉ unread → inv.args.get? name = inv'.args.get? name

namespace Agrees

variable {inv inv' : Invocation} (h : inv.Agrees inv')

include h

/-! ## Views of an invocation

A view looks at one argument, and its name is not on the list of those that are not read. -/

/-- Texts that are read agree. -/
theorem text? (name : String) (hname : name ∉ unread) :
    inv.args.text? name = inv'.args.text? name := by
  unfold Arguments.text?
  rw [h.args name hname]

/-- Integers that are read agree. -/
theorem integer? (name : String) (hname : name ∉ unread) :
    inv.args.integer? name = inv'.args.integer? name := by
  unfold Arguments.integer?
  rw [h.args name hname]

/-- The campaign that is named is the same. -/
theorem campaign?_eq : inv.campaign? = inv'.campaign? := h.text? _ (by decide)

theorem campaign_eq : inv.campaign = inv'.campaign := by
  unfold campaign
  rw [h.campaign?_eq, h.settings]

theorem number_eq {name : String} (hname : name ∉ unread) : inv.number name = inv'.number name := by
  unfold number Arguments.number?
  rw [h.args name hname]

theorem wantsFields_eq : inv.wantsFields = inv'.wantsFields := by
  unfold wantsFields Arguments.switch
  rw [h.args "list_fields" (by decide)]

theorem joinMode_eq : inv.joinMode = inv'.joinMode := by
  unfold joinMode
  rw [h.settings]

/-- The window is the same. -/
theorem window_eq : inv.window = inv'.window := by
  have hnames : ∀ p : Platform, ∀ name ∈ windowNames p, name ∉ unread := by
    intro p
    cases p <;> decide
  exact window_congr h.platform h.settings h.today fun name hname => h.text? name (hnames _ _ hname)

end Agrees

end Invocation

/-! ## Handlers

Each handler reads the invocation through the views above and otherwise calls the services, so that
its body is the same term for both invocations once the views are replaced. Helpers that several
handlers share come before them. -/

namespace Handler

variable {inv inv' : Invocation} (h : inv.Agrees inv')

include h

/-- Listing reads the platform, the choice between names and data, and the campaign. -/
theorem listCampaigns_congr : listCampaigns inv = listCampaigns inv' := by
  unfold listCampaigns
  rw [h.platform, h.wantsFields_eq, h.campaign?_eq]

/-- Statistics, for a window that is given, depend on the platform and the campaign. -/
theorem checkedStats_congr (w : Window) : checkedStats inv w = checkedStats inv' w := by
  unfold checkedStats
  rw [h.platform, h.campaign?_eq]

/-- Joined statistics depend on the window and on how strictly records are joined as well. -/
theorem joinedStats_congr : joinedStats inv = joinedStats inv' := by
  unfold joinedStats
  simp only [h.window_eq, checkedStats_congr h, h.platform, h.joinMode_eq]

theorem campaignStats_congr : campaignStats inv = campaignStats inv' := by
  unfold campaignStats
  rw [h.platform, h.wantsFields_eq, joinedStats_congr h]

theorem spent_congr : spent inv = spent inv' := by
  unfold spent
  simp only [h.platform, h.wantsFields_eq, h.window_eq, checkedStats_congr h]

theorem botTraffic_congr : botTraffic inv = botTraffic inv' := by
  unfold botTraffic
  rw [h.wantsFields_eq, joinedStats_congr h]

/-- The table of widgets depends on the campaign and the window. -/
theorem widgetTable_congr : widgetTable inv = widgetTable inv' := by
  unfold widgetTable
  simp only [h.platform, h.campaign_eq, h.window_eq, h.joinMode_eq]

theorem widgetFieldList_congr (extra : List String) :
    widgetFieldList inv extra = widgetFieldList inv' extra := by
  unfold widgetFieldList
  rw [h.platform]

theorem widgetsTop_congr : widgetsTop inv = widgetsTop inv' := by
  unfold widgetsTop
  rw [h.wantsFields_eq, widgetFieldList_congr h, h.integer? _ (by decide), h.settings,
    widgetTable_congr h]

theorem widgetsStats_congr : widgetsStats inv = widgetsStats inv' := by
  unfold widgetsStats
  rw [h.wantsFields_eq, widgetFieldList_congr h, widgetTable_congr h, h.text? _ (by decide)]

theorem selectBy_congr (select : Float → Record → Bool) :
    selectBy select inv = selectBy select inv' := by
  unfold selectBy
  rw [h.wantsFields_eq, widgetFieldList_congr h, h.number_eq (by decide), widgetTable_congr h]

/-- The kill verbs read a threshold besides, and pause on the platform of the invocation. -/
theorem killBy_congr (target? : Float → Record → Option Record) (fields : List String) :
    killBy target? fields inv = killBy target? fields inv' := by
  unfold killBy pause
  rw [h.wantsFields_eq, widgetFieldList_congr h, h.number_eq (by decide), widgetTable_congr h,
    h.platform]

theorem widgetsTurnOnAll_congr : widgetsTurnOnAll inv = widgetsTurnOnAll inv' := by
  unfold widgetsTurnOnAll
  rw [h.platform, h.wantsFields_eq, h.campaign_eq]

theorem trackerList_congr : trackerList inv = trackerList inv' := by
  unfold trackerList
  rw [h.wantsFields_eq, h.campaign?_eq]

theorem trackerSources_congr : trackerSources inv = trackerSources inv' := by
  unfold trackerSources
  rw [h.wantsFields_eq, h.window_eq]

theorem trackerStats_congr : trackerStats inv = trackerStats inv' := by
  unfold trackerStats
  rw [h.wantsFields_eq, h.window_eq, h.campaign?_eq]

/-- **No handler tells the two invocations apart.** -/
theorem handlerOf_congr (p : Platform) (v : Verb) : handlerOf p v inv = handlerOf p v inv' := by
  -- By verb and platform, which is how a handler is found.
  cases v with
  | list => cases p <;> first | exact trackerList_congr h | exact listCampaigns_congr h
  | stats => cases p <;> first | exact trackerStats_congr h | exact campaignStats_congr h
  | spent => cases p <;> exact spent_congr h
  | botTraffic => cases p <;> exact botTraffic_congr h
  | sources => cases p <;> exact trackerSources_congr h
  | widgetsTop => cases p <;> exact widgetsTop_congr h
  | widgetsStats => cases p <;> exact widgetsStats_congr h
  | widgetsHighCpa => cases p <;> exact selectBy_congr h _
  | widgetsLowCpa => cases p <;> exact selectBy_congr h _
  | widgetsKillLongtail => cases p <;> exact killBy_congr h _ _
  | widgetsKillBot => cases p <;> exact killBy_congr h _ _
  | widgetsTurnOnAll => cases p <;> exact widgetsTurnOnAll_congr h

end Handler

/-- **Invocations that agree on what handlers read are handled alike.** -/
theorem Invocation.handle_congr {inv inv' : Invocation} (h : inv.Agrees inv') :
    inv.handle = inv'.handle := by
  unfold handle
  rw [h.platform, h.verb]
  exact Handler.handlerOf_congr h _ _

end AdOps
