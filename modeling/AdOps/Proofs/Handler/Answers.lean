import AdOps.Proofs.Handler.Acting

/-!
# Kinds of answers

A command answers in one of three ways: it lists field names, and it does so exactly if it is asked
for them; it shows records; or it acknowledges that widgets were resumed.

* **`isAnswer_handle`** — a command that succeeds answers in one of these ways.
-/

namespace AdOps

/-- An answer of a command that asks for field names, or of one that asks for data. -/
inductive Outcome.IsAnswer (wantsFields : Bool) : Outcome → Prop where
  | names (h : wantsFields = true) (names : List String) : IsAnswer wantsFields (.fieldList names)
  | records (h : wantsFields = false) (rs : List Record) (issues : List Issue) :
      IsAnswer wantsFields (.records rs issues)
  | resumed (h : wantsFields = false) (count : Nat) (campaign : String) :
      IsAnswer wantsFields
        (.text ("Resumed " ++ Number.integerText (Int.ofNat count) ++ " widgets in campaign " ++
          campaign))

namespace Outcome

variable (args : Arguments)

/-- The flags that shape the output leave a text alone. -/
theorem shape_text (s : String) : (text s).shape args = text s := by
  unfold shape
  rw [show (text s).issues = [] from rfl, ite_self]
  rfl

/-- They leave a list of fields alone. -/
theorem shape_fieldList (names : List String) : (fieldList names).shape args = fieldList names :=
  shape_text args _

/-- An answer stays one of its kind when it is shaped. -/
theorem IsAnswer.shape {wantsFields : Bool} {o : Outcome} (h : o.IsAnswer wantsFields) :
    (o.shape args).IsAnswer wantsFields := by
  cases h with
  | names hwants names =>
    rw [shape_fieldList]
    exact .names hwants names
  | records hdata rs issues => exact .records hdata _ _
  | resumed hdata count campaign =>
    rw [shape_text]
    exact .resumed hdata count campaign

end Outcome

namespace Handler

open AdOps.Action

variable (inv : Invocation)

/-- The handler gives answers only. -/
abbrev Answers (handler : Handler) : Prop := Gives (Outcome.IsAnswer inv.wantsFields) (handler inv)

/-- What a handler does behind the choice between names and data. -/
theorem gives_ite {names data : Action Outcome}
    (hnames : inv.wantsFields = true → Gives (Outcome.IsAnswer inv.wantsFields) names)
    (hdata : inv.wantsFields = false → Gives (Outcome.IsAnswer inv.wantsFields) data) :
    Gives (Outcome.IsAnswer inv.wantsFields) (if inv.wantsFields then names else data) := by
  cases h : inv.wantsFields with
  | true =>
    rw [if_pos rfl]
    exact h ▸ hnames h
  | false =>
    rw [if_neg Bool.false_ne_true]
    exact h ▸ hdata h

variable {inv}

/-! ## Campaign verbs

Each handler is followed down its steps to the answer at its end. `gives_ite` is the choice that all
of them begin with, and which of the two branches is taken tells the kind of the answer. -/

theorem answers_listCampaigns : Answers inv listCampaigns :=
  .bind _ fun _ => gives_ite inv (fun h => .bind _ fun _ => .pure (.names h _)) fun h =>
    .bind _ fun campaigns => gives_found (fun _ => .records h _ _) _ campaigns

theorem answers_campaignStats : Answers inv campaignStats :=
  .bind _ fun _ => gives_ite inv
    (fun h => .bind _ fun _ => .bind _ fun _ => .pure (.names h _))
    fun h => .bind _ fun _ => .pure (.records h _ _)

theorem answers_spent : Answers inv spent :=
  .bind _ fun _ => gives_ite inv (fun h => .pure (.names h _)) fun h =>
    .bind _ fun _ => .bind _ fun _ => .pure (.records h _ _)

theorem answers_botTraffic : Answers inv botTraffic :=
  gives_ite inv (fun h => .pure (.names h _)) fun h => .bind _ fun _ => .pure (.records h _ _)

/-! ## Verbs of the tracker

They begin with the choice too, but are asked of the tracker alone. -/

theorem answers_trackerList : Answers inv trackerList :=
  gives_ite inv (fun h => .bind _ fun _ => .pure (.names h _)) fun h =>
    .bind _ fun campaigns => gives_found (fun _ => .records h _ _) _ campaigns

theorem answers_trackerSources : Answers inv trackerSources :=
  gives_ite inv (fun h => .bind _ fun _ => .pure (.names h _)) fun h =>
    .bind _ fun _ => .bind _ fun _ => .pure (.records h _ _)

theorem answers_trackerStats : Answers inv trackerStats :=
  gives_ite inv (fun h => .bind _ fun _ => .pure (.names h _)) fun h =>
    .bind _ fun _ => .bind _ fun _ => .bind _ fun _ => .pure (.records h _ _)

/-! ## Widget verbs

The list of fields is put together in one place for all of them, so is the table. -/

theorem gives_widgetFieldList (h : inv.wantsFields = true) (extra : List String) :
    Gives (Outcome.IsAnswer inv.wantsFields) (widgetFieldList inv extra) :=
  .bind _ fun _ => .pure (.names h _)

theorem answers_widgetsTop : Answers inv widgetsTop :=
  gives_ite inv (fun h => gives_widgetFieldList h []) fun h =>
    .bind _ fun _ => .pure (.records h _ _)

theorem answers_widgetsStats : Answers inv widgetsStats :=
  gives_ite inv (fun h => gives_widgetFieldList h []) fun h =>
    .bind _ fun _ => gives_chosen (fun _ => .records h _ _) _

theorem answers_selectBy (select : Float → Record → Bool) : Answers inv (selectBy select) :=
  gives_ite inv (fun h => gives_widgetFieldList h []) fun h =>
    .bind _ fun _ => .bind _ fun _ => .pure (.records h _ _)

/-- A kill verb answers with the rows that it paused, or with names. -/
theorem answers_killBy (target? : Float → Record → Option Record) (fields : List String) :
    Answers inv (killBy target? fields) :=
  gives_ite inv (fun h => gives_widgetFieldList h fields) fun h =>
    .bind _ fun _ => .bind _ fun table => fun d o d' hon => by
      -- The answer is that of the last step.
      rw [(pause_eq_ok hon).1]
      exact .records h _ _

theorem answers_widgetsTurnOnAll : Answers inv widgetsTurnOnAll := by
  refine .bind _ fun _ => gives_ite inv (fun h => .pure (.names h _)) fun h =>
    .bind _ fun id => .bind _ fun found => ?_
  show Gives _ (if found.isNone then _ else _)
  split
  · exact .bind _ fun _ => .bind _ fun _ => .pure (.resumed h _ _)
  · exact .bind _ fun _ => .pure (.resumed h _ _)

/-! ## All verbs

A handler is found by its platform and its verb; `handlerOf_cases` goes through the table. -/

/-- **A command that succeeds lists field names if it is asked for them**, and otherwise shows
records or acknowledges that widgets were resumed. -/
theorem isAnswer_handle (inv : Invocation) :
    Gives (Outcome.IsAnswer inv.wantsFields) inv.handle := by
  show Answers inv (handlerOf inv.platform inv.command.verb)
  apply handlerOf_cases (motive := fun _ handler => Answers inv handler)
  case list => exact answers_listCampaigns
  case trackerList => exact answers_trackerList
  case stats => exact answers_campaignStats
  case trackerStats => exact answers_trackerStats
  case sources => exact answers_trackerSources
  case spent => exact answers_spent
  case botTraffic => exact answers_botTraffic
  case widgetsTop => exact answers_widgetsTop
  case widgetsStats => exact answers_widgetsStats
  case widgetsHighCpa => exact answers_selectBy isHighCpa
  case widgetsLowCpa => exact answers_selectBy isLowCpa
  case widgetsKillLongtail => exact answers_killBy longtailTarget? _
  case widgetsKillBot => exact answers_killBy botTarget? _
  case widgetsTurnOnAll => exact answers_widgetsTurnOnAll

end Handler

end AdOps
