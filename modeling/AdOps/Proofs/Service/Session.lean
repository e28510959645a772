import AdOps.Proofs.Service.Calls
import AdOps.Service.Fixtures
import Mathlib.Data.List.Forall2

/-!
# Runs of network calls

A network keeps one set of paused widgets per campaign, and its calls change the sets in place. A
`Session` keeps, beside the desk, the requests made on it and whether they succeeded, and
`pausedIds` tells from these alone what is paused: what was named by the pauses that succeeded, back
to the last time that the campaign was resumed. Along every run the two agree.

* **`on_action`** — a request comes to one step of its network.
* **`action_leaves`** — what a request leaves paused is what its entry in the history says.
* **`Consistent.run`** — along a run the sets are those that the history tells.
* **`told_run`** — what the calls come to after any run.
-/

namespace AdOps

/-- No call runs into a fault. -/
def Desk.Faultless (d : Desk) : Prop := ∀ p call, d.faults p call = none

/-- What a network can be asked for. -/
inductive Request where
  | listCampaigns
  | findCampaign (campaign : String)
  | campaignStats (campaign : Option String) (w : Window)
  | widgetStats (campaign : String) (w : Window)
  | pauseWidgets (campaign : String) (ids : List String)
  | resumeAllWidgets (campaign : String)
  | campaignFields
  | widgetFields

/-- A request that was made, and whether it succeeded. -/
structure Performed where
  platform : Platform
  request : Request
  succeeded : Bool

/-- A desk with the requests that were made on it, the latest first. -/
structure Session where
  desk : Desk
  history : List Performed := []

namespace Request

/-- The call for a request, whatever it answers. -/
def action (p : Platform) : Request → Action Unit
  | listCampaigns => discard (Action.listCampaigns p)
  | findCampaign campaign => discard (Action.findCampaign p campaign)
  | campaignStats campaign w => discard (Action.campaignStats p campaign w)
  | widgetStats campaign w => discard (Action.widgetStats p campaign w)
  | pauseWidgets campaign ids => Action.pauseWidgets p campaign ids
  | resumeAllWidgets campaign => discard (Action.resumeAllWidgets p campaign)
  | campaignFields => discard (Action.campaignFields p)
  | widgetFields => discard (Action.widgetFields p)

/-- The campaign that a request names. -/
def campaign? : Request → Option String
  | findCampaign campaign | widgetStats campaign _ | pauseWidgets campaign _
  | resumeAllWidgets campaign => some campaign
  | campaignStats campaign _ => campaign
  | listCampaigns | campaignFields | widgetFields => none

/-- The campaign whose widgets a request is about. -/
def widgetsOf? : Request → Option String
  | widgetStats campaign _ | pauseWidgets campaign _ | resumeAllWidgets campaign => some campaign
  | _ => none

end Request

namespace Performed

/-- The request resumed the widgets of the campaign. -/
def resumes (p : Platform) (campaign : String) : Performed → Bool
  | ⟨q, .resumeAllWidgets c, true⟩ => p == q && campaign == c
  | _ => false

/-- The widgets of the campaign that the request paused. -/
def pauses (p : Platform) (campaign : String) : Performed → List String
  | ⟨q, .pauseWidgets c ids, true⟩ => if p = q ∧ campaign = c then ids else []
  | _ => []

/-- What is paused after the request, where `ids` were paused before it. -/
def leaves (done : Performed) (p : Platform) (campaign : String) (ids : NameSet) : NameSet :=
  if done.resumes p campaign then NameSet.empty else ids.insertAll (done.pauses p campaign)

end Performed

/-- The widgets of a campaign that were paused since it was last resumed. -/
def pausedIds (p : Platform) (campaign : String) (history : List Performed) : List String :=
  (history.takeWhile fun done => !done.resumes p campaign).flatMap fun done =>
    done.pauses p campaign

namespace Session

def perform (s : Session) (p : Platform) (r : Request) : Session :=
  match (r.action p).on s.desk with
  | (result, d) => ⟨d, ⟨p, r, result.isOk⟩ :: s.history⟩

/-- Makes requests in turn, each of one platform. -/
def run (s : Session) (requests : List (Platform × Request)) : Session :=
  requests.foldl (fun s request => s.perform request.1 request.2) s

end Session

/-! ## What the history tells

One entry of the history says what it leaves paused of what was paused before. The entries are read
from the latest back to the last time the campaign was resumed, so a new entry acts on what the rest
tells. -/

namespace Performed

variable {done : Performed} {p : Platform} {campaign : String} {ids : NameSet}

/-- **A request that failed leaves all sets as they were.** -/
theorem leaves_of_failed (h : done.succeeded = false) : done.leaves p campaign ids = ids := by
  obtain ⟨q, r, succeeded⟩ := done
  obtain rfl : succeeded = false := h
  cases r <;> rfl

/-- A pause that succeeded adds to the set of its campaign. -/
theorem leaves_pauseWidgets (q : Platform) (c : String) (names : List String) :
    (⟨q, .pauseWidgets c names, true⟩ : Performed).leaves p campaign ids =
      if p = q ∧ campaign = c then ids.insertAll names else ids := by
  show ids.insertAll (if p = q ∧ campaign = c then names else []) = _
  split <;> rfl

/-- A resume that succeeded empties the set of its campaign. -/
theorem leaves_resumeAllWidgets (q : Platform) (c : String) :
    (⟨q, .resumeAllWidgets c, true⟩ : Performed).leaves p campaign ids =
      if p = q ∧ campaign = c then NameSet.empty else ids := by
  simp [leaves, resumes, pauses, NameSet.insertAll]

/-- **A request leaves the sets of the campaigns that it does not name as they were.** -/
theorem leaves_of_elsewhere
    (h : ¬ (done.platform = p ∧ done.request.campaign? = some campaign)) :
    done.leaves p campaign ids = ids := by
  obtain ⟨q, r, _ | _⟩ := done
  · exact leaves_of_failed rfl
  · cases r with
    | listCampaigns | findCampaign | campaignStats | widgetStats | campaignFields
    | widgetFields => rfl
    | pauseWidgets c names =>
      rw [leaves_pauseWidgets, if_neg]
      exact fun heq => h ⟨heq.1.symm, congrArg some heq.2.symm⟩
    | resumeAllWidgets c =>
      rw [leaves_resumeAllWidgets, if_neg]
      exact fun heq => h ⟨heq.1.symm, congrArg some heq.2.symm⟩

end Performed

/-- The latest request leaves paused what it leaves of what the ones before it tell. -/
theorem ofList_pausedIds_cons (done : Performed) (history : List Performed) (p : Platform)
    (campaign : String) :
    NameSet.ofList (pausedIds p campaign (done :: history)) =
      done.leaves p campaign (NameSet.ofList (pausedIds p campaign history)) := by
  unfold pausedIds Performed.leaves
  rw [List.takeWhile_cons]
  -- Where the campaign was just resumed, nothing before that counts.
  cases done.resumes p campaign with
  | true => rfl
  | false =>
    refine NameSet.ext_mem fun id => ?_
    simp

/-! ## What a request comes to

Without faults a request is one step of its network, and each step leaves paused what its entry
says. There is one case per request, and the two that act ask whether the campaign has rows. -/

namespace Request

/-- The step that a network takes for a request. -/
def step (p : Platform) : Request → Network.Step Unit
  | campaignStats campaign w => (Network.Step.campaignStats campaign w).silent
  | widgetStats campaign w => (Network.Step.widgetStats p campaign w).silent
  | pauseWidgets campaign ids => Network.Step.pauseWidgets p campaign ids
  | resumeAllWidgets campaign => (Network.Step.resumeAllWidgets p campaign).silent
  | listCampaigns | findCampaign _ | campaignFields | widgetFields =>
    Network.Step.view fun _ => ()

/-- **What a step leaves of its network**: the data, and paused what its entry in the history says.
-/
theorem step_leaves (r : Request) (p : Platform) (n : Network) :
    (r.step p n).2.data = n.data ∧ ∀ campaign, (r.step p n).2.pausedWidgets campaign =
      (⟨p, r, (r.step p n).1.isOk⟩ : Performed).leaves p campaign (n.pausedWidgets campaign) := by
  cases r with
  | listCampaigns | findCampaign | campaignStats | campaignFields | widgetFields =>
    exact ⟨rfl, fun _ => rfl⟩
  | widgetStats c w =>
    have hnote : ((widgetStats c w).step p n).2 = n.note w := Network.Step.snd_widgetStats p c w n
    rw [hnote]
    exact ⟨rfl, fun _ => rfl⟩
  | pauseWidgets c ids =>
    cases hc : n.data.widgetStats.contains c with
    | false =>
      rw [show (pauseWidgets c ids).step p n = _ from Network.Step.pauseWidgets_of_missing hc p ids]
      exact ⟨rfl, fun _ => rfl⟩
    | true =>
      obtain ⟨n', hstep, hdata, hpaused⟩ := Network.Step.pauseWidgets_of_contains hc p ids
      rw [show (pauseWidgets c ids).step p n = (.ok (), n') from hstep]
      refine ⟨hdata, fun campaign => (hpaused campaign).trans ?_⟩
      show _ = (⟨p, .pauseWidgets c ids, true⟩ : Performed).leaves _ _ _
      simp only [Performed.leaves_pauseWidgets, true_and]
      split
      · next heq => rw [heq]
      · rfl
  | resumeAllWidgets c =>
    cases hc : n.data.widgetStats.contains c with
    | false =>
      rw [show (resumeAllWidgets c).step p n = _ from
        Network.Step.silent_eq (Network.Step.resumeAllWidgets_of_missing hc p)]
      exact ⟨rfl, fun _ => rfl⟩
    | true =>
      obtain ⟨n', hstep, hdata, hpaused⟩ := Network.Step.resumeAllWidgets_of_contains hc p
      rw [show (resumeAllWidgets c).step p n = (.ok (), n') from Network.Step.silent_eq hstep]
      refine ⟨hdata, fun campaign => (hpaused campaign).trans ?_⟩
      show _ = (⟨p, .resumeAllWidgets c, true⟩ : Performed).leaves _ _ _
      simp only [Performed.leaves_resumeAllWidgets, true_and]

/-- A request about the widgets of a campaign without rows fails. -/
theorem step_of_missing {r : Request} {n : Network} {campaign : String}
    (hr : r.widgetsOf? = some campaign) (h : n.data.widgetStats.contains campaign = false)
    (p : Platform) : (r.step p n).1 = .error (.service (Network.notFound p campaign)) := by
  cases r with
  | listCampaigns | findCampaign | campaignStats | campaignFields | widgetFields =>
    exact absurd hr (by simp [widgetsOf?])
  | widgetStats c w =>
    obtain rfl := Option.some.inj hr
    exact congrArg Prod.fst (Network.Step.silent_eq (Network.Step.widgetStats_of_missing h p w))
  | pauseWidgets c ids =>
    obtain rfl := Option.some.inj hr
    exact congrArg Prod.fst (Network.Step.pauseWidgets_of_missing h p ids)
  | resumeAllWidgets c =>
    obtain rfl := Option.some.inj hr
    exact congrArg Prod.fst (Network.Step.silent_eq (Network.Step.resumeAllWidgets_of_missing h p))

end Request

namespace Desk

variable {d : Desk}

/-- The step of the network of a platform, where one is configured. -/
def stepped {α : Type} (d : Desk) (p : Platform) (step : Network.Step α) :
    Except Failure α × Desk :=
  match d.network? p with
  | some n => ((step n).1, d.setNetwork p (step n).2)
  | none => (.error (.service (.notConfigured p)), d)

theorem stepped_eq {α : Type} {p : Platform} {n : Network} (h : d.network? p = some n)
    (step : Network.Step α) : d.stepped p step = ((step n).1, d.setNetwork p (step n).2) := by
  unfold stepped
  rw [h]

/-- The data of the network of a platform. -/
def data? (d : Desk) (p : Platform) : Option NetworkData := (d.network? p).map Network.data

/-- Without faults a call reaches every network that is configured. -/
theorem Faultless.reach (h : d.Faultless) (p : Platform) (call : Call) :
    d.reach p call =
      match d.network? p with
      | some n => .ok n
      | none => .error (.service (.notConfigured p)) := by
  unfold Desk.reach fault?
  rw [h p call]
  cases d.network? p <;> rfl

/-- Without faults a call is the step of its network. -/
theorem Faultless.through {α : Type} (h : d.Faultless) (p : Platform) (call : Call)
    (step : Network.Step α) : d.through p call step = d.stepped p step := by
  unfold Desk.through stepped
  rw [h.reach]
  cases d.network? p <;> rfl

theorem Faultless.map_reach {α : Type} (h : d.Faultless) (p : Platform) (call : Call)
    (f : Network → α) : ((d.reach p call).map f, d) = d.stepped p (Network.Step.view f) := by
  rw [h.reach]
  unfold stepped
  cases hn : d.network? p with
  | none => rfl
  | some n =>
    show (Except.ok (f n), d) = (Except.ok (f n), d.setNetwork p n)
    rw [setNetwork_self hn]

/-- A network with the same data in its place makes no difference to the data. -/
theorem data?_setNetwork {p : Platform} {n m : Network} (h : d.network? p = some n)
    (hm : m.data = n.data) (q : Platform) : (d.setNetwork p m).data? q = d.data? q := by
  unfold data?
  rw [network?_setNetwork h]
  by_cases hq : q = p
  · rw [if_pos hq, hq, h, Option.map_some, Option.map_some, hm]
  · rw [if_neg hq]

end Desk

namespace Action

variable {α : Type} {d : Desk}

theorem on_discard_stepped {x : Action α} {p : Platform} {step : Network.Step α}
    (h : x.on d = d.stepped p step) : (discard x).on d = d.stepped p step.silent := by
  rw [on_discard, h]
  unfold Desk.stepped
  cases d.network? p <;> rfl

/-- A call for a list of fields tells something of the network and changes nothing. -/
theorem on_listed_stepped (h : d.Faultless) (p : Platform) (call : Call) (f : Network → α) :
    (network p >>= fun n => enterUnrefused p call >>= fun _ => pure (f n)).on d =
      d.stepped p (Network.Step.view f) := by
  rw [on_bind, on_network]
  unfold Desk.stepped
  cases hn : d.network? p with
  | none => rfl
  | some n =>
    show (enterUnrefused p call >>= fun _ => pure (f n)).on d = (.ok (f n), d.setNetwork p n)
    rw [on_bind, on_enterUnrefused, h p call, Desk.setNetwork_self hn]
    rfl

end Action

namespace Request

open AdOps.Action

variable {d : Desk}

/-- **A request comes to one step of its network**, and to a failure where none is configured. -/
theorem on_action (h : d.Faultless) (r : Request) (p : Platform) :
    (r.action p).on d = d.stepped p (r.step p) := by
  cases r with
  | listCampaigns => exact on_discard_stepped ((on_listCampaigns p d).trans (h.map_reach _ _ _))
  | findCampaign campaign =>
    exact on_discard_stepped ((on_findCampaign p campaign d).trans (h.map_reach _ _ _))
  | campaignStats campaign w =>
    exact on_discard_stepped ((on_campaignStats p campaign w d).trans (h.through _ _ _))
  | widgetStats campaign w =>
    exact on_discard_stepped ((on_widgetStats p campaign w d).trans (h.through _ _ _))
  | pauseWidgets campaign ids => exact (on_pauseWidgets p campaign ids d).trans (h.through _ _ _)
  | resumeAllWidgets campaign =>
    exact on_discard_stepped ((on_resumeAllWidgets p campaign d).trans (h.through _ _ _))
  | campaignFields =>
    exact on_discard_stepped (on_listed_stepped h p .campaignFields Network.campaignFields)
  | widgetFields =>
    exact on_discard_stepped (on_listed_stepped h p .widgetFields Network.widgetFields)

/-- **What a request leaves of the desk**: no fault, the data of every network, and paused what its
entry in the history says. -/
theorem action_leaves (h : d.Faultless) (r : Request) (p : Platform) :
    ((r.action p).on d).2.Faultless ∧
      (∀ q, ((r.action p).on d).2.data? q = d.data? q) ∧
      ∀ q campaign, ((r.action p).on d).2.paused q campaign =
        (⟨p, r, ((r.action p).on d).1.isOk⟩ : Performed).leaves q campaign
          (d.paused q campaign) := by
  rw [on_action h]
  unfold Desk.stepped
  cases hn : d.network? p with
  | none => exact ⟨h, fun _ => rfl, fun _ _ => (Performed.leaves_of_failed rfl).symm⟩
  | some n =>
    obtain ⟨hdata, hpaused⟩ := r.step_leaves p n
    refine ⟨?_, Desk.data?_setNetwork hn hdata, fun q campaign => ?_⟩
    · show ∀ q call, (d.setNetwork p _).faults q call = none
      rw [Desk.faults_setNetwork]
      exact h
    · show (d.setNetwork p _).paused q campaign = _
      rw [Desk.paused_setNetwork hn]
      by_cases hq : q = p
      · rw [if_pos hq, hpaused, hq, Desk.paused_eq hn]
      · rw [if_neg hq, Performed.leaves_of_elsewhere fun hboth => hq hboth.1.symm]

end Request

/-! ## Runs

What a run keeps is that the desk agrees with the history: no faults, the data of the fixtures, and
the sets that the entries tell. One request keeps it, and a run by induction on the requests. -/

namespace Session

/-- The session stands as runs on these fixtures lead to: the data are those of the fixtures, and
what is paused is what the history tells. -/
structure Consistent (f : Fixtures) (s : Session) : Prop where
  faultless : s.desk.Faultless
  data : ∀ p, s.desk.data? p = f.desk.data? p
  paused : ∀ p campaign,
    s.desk.paused p campaign = NameSet.ofList (pausedIds p campaign s.history)

variable {f : Fixtures} {s : Session}

/-- Nothing is paused on a fresh desk. -/
theorem consistent_start (f : Fixtures) : Consistent f { desk := f.desk } where
  faultless _ _ := rfl
  data _ := rfl
  paused p campaign := by
    obtain ⟨mgid, zeropark, _⟩ := f
    cases p with
    | thrive => rfl
    | mgid => cases mgid <;> rfl
    | zeropark => cases zeropark <;> rfl

/-- The networks of the fixtures are there, with their data. -/
theorem Consistent.exists_network (h : Consistent f s) {p : Platform} {n₀ : Network}
    (hn₀ : f.desk.network? p = some n₀) :
    ∃ n, s.desk.network? p = some n ∧ n.data = n₀.data := by
  have hdata : (s.desk.network? p).map Network.data = (f.desk.network? p).map Network.data :=
    h.data p
  rw [hn₀] at hdata
  exact Option.map_eq_some_iff.1 hdata

/-- One request keeps a session consistent. -/
theorem Consistent.perform (h : Consistent f s) (p : Platform) (r : Request) :
    Consistent f (s.perform p r) := by
  obtain ⟨hfaultless, hdata, hpaused⟩ := r.action_leaves h.faultless p
  refine ⟨hfaultless, fun q => (hdata q).trans (h.data q), fun q campaign => ?_⟩
  show _ = NameSet.ofList (pausedIds q campaign (_ :: s.history))
  rw [ofList_pausedIds_cons, ← h.paused]
  exact hpaused q campaign

/-- **Along a run the sets are those that the history tells.** -/
theorem Consistent.run (h : Consistent f s) (requests : List (Platform × Request)) :
    Consistent f (s.run requests) := by
  -- Induction on the requests, from any session that stands so.
  induction requests generalizing s with
  | nil => exact h
  | cons request requests ih => exact ih (h.perform request.1 request.2)

end Session

/-! ## What the calls come to after a run

After a run the history tells what is paused, and the calls on a network tell the same: which rows
are shown as paused, how many widgets are resumed, and which requests fail. -/

/-- A row as it is shown where some widgets are paused: every field but the status is its own. -/
structure Record.ShownAs (paused : NameSet) (row shown : Record) : Prop where
  others : ∀ name, name ≠ "status" → shown.get? name = row.get? name
  status : shown.get? "status" =
    some (.string (if ∃ id ∈ row.id?, id ∈ paused then "paused" else "active"))

/-- A network shows its rows with the status that the paused set gives them. -/
theorem Network.shownAs_withStatus (n : Network) (campaign : String) (row : Record) :
    Record.ShownAs (n.pausedWidgets campaign) row (n.withStatus campaign row) where
  others name hname := by
    unfold withStatus
    rw [NameMap.get?_insert, if_neg hname]
  status := by
    have hpaused : (row.id?.any fun id => (n.pausedWidgets campaign).contains id) = true ↔
        ∃ id ∈ row.id?, id ∈ n.pausedWidgets campaign := by
      cases row.id? with
      | none => simp
      | some id =>
        simp only [Option.any_some, Option.mem_some, exists_eq_left']
        exact List.contains_iff_mem
    unfold withStatus
    rw [NameMap.get?_insert, if_pos rfl]
    simp only [hpaused]

namespace Session

/-- What the calls on one network come to where a session stands. -/
structure Told (s : Session) (p : Platform) (data : NetworkData) : Prop where
  sorted : ∀ campaign, (s.desk.paused p campaign).toList.Pairwise (· < ·)
  /-- A widget is paused if a request has paused it, and none since has resumed its campaign. -/
  paused : ∀ campaign id, id ∈ (s.desk.paused p campaign).toList ↔
    ∃ done ∈ s.history.takeWhile (fun done => !done.resumes p campaign),
      id ∈ done.pauses p campaign
  resumed : ∀ campaign, data.widgetStats.contains campaign = true →
    ∃ d, (Action.resumeAllWidgets p campaign).on s.desk =
        (.ok (s.desk.paused p campaign).toList.length, d) ∧
      d.paused p campaign = NameSet.empty
  shown : ∀ campaign rows, data.widgetStats.get? campaign = some rows → ∀ w,
    ∃ shown d, (Action.widgetStats p campaign w).on s.desk = (.ok shown, d) ∧
      List.Forall₂ (Record.ShownAs (s.desk.paused p campaign)) rows shown
  missing : ∀ campaign, data.widgetStats.contains campaign = false → ∀ r : Request,
    r.widgetsOf? = some campaign →
      ∃ d, (r.action p).on s.desk = (.error (.service (Network.notFound p campaign)), d) ∧
        d.paused = s.desk.paused
  /-- Requests leave the sets of the campaigns that they do not name, also on other platforms. -/
  frame : ∀ (q : Platform) (r : Request) campaign, ¬ (q = p ∧ r.campaign? = some campaign) →
    ((r.action q).on s.desk).2.paused p campaign = s.desk.paused p campaign

/-- **What a network tells where a session stands as a run leads to.** -/
theorem Consistent.told {f : Fixtures} {s : Session} (h : Consistent f s) {p : Platform}
    {n₀ : Network} (hn₀ : f.desk.network? p = some n₀) : Told s p n₀.data := by
  obtain ⟨n, hn, hdata⟩ := h.exists_network hn₀
  have hpaused : s.desk.paused p = n.pausedWidgets := Desk.paused_eq hn
  constructor
  case sorted => exact fun campaign => (s.desk.paused p campaign).sorted
  case paused =>
    intro campaign id
    show id ∈ s.desk.paused p campaign ↔ _
    rw [h.paused, NameSet.mem_ofList]
    exact List.mem_flatMap
  case resumed =>
    intro campaign hrows
    rw [← hdata] at hrows
    obtain ⟨n', hstep, -, hleft⟩ := Network.Step.resumeAllWidgets_of_contains hrows p
    refine ⟨s.desk.setNetwork p n', ?_, ?_⟩
    · rw [Action.on_resumeAllWidgets, h.faultless.through, Desk.stepped_eq hn, hstep, hpaused]
      rfl
    · rw [Desk.paused_setNetwork hn, if_pos rfl, hleft, if_pos rfl]
  case shown =>
    intro campaign rows hrows w
    rw [← hdata] at hrows
    refine ⟨rows.map (n.withStatus campaign), s.desk.setNetwork p (n.note w), ?_, ?_⟩
    · rw [Action.on_widgetStats, h.faultless.through, Desk.stepped_eq hn,
        Network.Step.widgetStats_of_rows hrows]
    · rw [hpaused, List.forall₂_map_right_iff]
      exact List.forall₂_same.2 fun row _ => n.shownAs_withStatus campaign row
  case missing =>
    intro campaign hrows r hr
    rw [← hdata] at hrows
    have hfails : ((r.action p).on s.desk).1 = .error (.service (Network.notFound p campaign)) := by
      rw [r.on_action h.faultless, Desk.stepped_eq hn]
      exact Request.step_of_missing hr hrows p
    refine ⟨((r.action p).on s.desk).2, Prod.ext hfails rfl, ?_⟩
    funext q c
    rw [(r.action_leaves h.faultless p).2.2 q c, hfails]
    exact Performed.leaves_of_failed rfl
  case frame =>
    intro q r campaign helsewhere
    rw [(r.action_leaves h.faultless q).2.2 p campaign]
    exact Performed.leaves_of_elsewhere helsewhere

/-- **What is paused is what was asked for.** For any data and any requests on its networks, in any
order and whether they succeed or not: the widgets of a campaign that are paused are those that
requests paused since its widgets were last resumed, and every call on its network tells so. -/
theorem told_run (f : Fixtures) {p : Platform} {n : Network} (h : f.desk.network? p = some n)
    (requests : List (Platform × Request)) :
    Told (run { desk := f.desk } requests) p n.data :=
  ((consistent_start f).run requests).told h

/-! A number and a text that reads like it are one identifier, and a request that fails pauses
nothing. -/

namespace Twins

def row (id : Json) : Record := .ofList [("id", id)]

def rows : List Record := [row (.int 1), row (.string "1"), row (.string "2")]

def fixtures : Fixtures := { mgid := some { widgetStats := .ofList [("7", rows)] } }

def network : Network := { data := { widgetStats := .ofList [("7", rows)] } }

def requests : List (Platform × Request) :=
  [(.mgid, .pauseWidgets "7" ["2"]), (.mgid, .resumeAllWidgets "7"),
    (.mgid, .pauseWidgets "7" ["1"]), (.mgid, .pauseWidgets "8" ["2"])]

def session : Session := run { desk := fixtures.desk } requests

def shown : List Record :=
  [(row (.int 1)).insert "status" (.string "paused"),
    (row (.string "1")).insert "status" (.string "paused"),
    (row (.string "2")).insert "status" (.string "active")]

end Twins

theorem told_run_twins :
    Told Twins.session .mgid Twins.network.data ∧
      Twins.session.desk.paused .mgid "7" = NameSet.ofList ["1"] ∧
      ∀ w, ((Action.widgetStats .mgid "7" w).on Twins.session.desk).1 = .ok Twins.shown :=
  ⟨told_run Twins.fixtures (n := Twins.network) rfl Twins.requests, by decide +kernel,
    fun w => by rfl⟩

end Session
end AdOps
