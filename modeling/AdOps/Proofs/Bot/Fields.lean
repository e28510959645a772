import AdOps.Proofs.Bot.Pausing
import AdOps.Proofs.Handler.Answers
import AdOps.Proofs.Handler.WidgetFields

/-!
# Messages and their lists of fields

A message that is answered with records can be sent again with the word behind it that asks for
fields. It then stands for the same command with the switch, and is answered with a list that every
field of the records is on, apart from fields of the tracker that no list has.

* **`fields_listed`** — the list for a message, and the fields of its records.
-/

namespace AdOps

/-- Without a list of fields, shaping leaves a beginning of the records. -/
theorem Outcome.records_of_shape {args : Arguments} (hfields : args.list? "fields" = none)
    {o : Outcome} {rs : List Record} (h : (o.shape args).body = .records rs) :
    ∃ all, o.body = .records all ∧ rs ⊆ all := by
  obtain ⟨body, issues⟩ := o
  cases body with
  | text s => exact absurd h (by simp [shape, shapeBody])
  | records all =>
    refine ⟨all, rfl, ?_⟩
    have hbody : shapeBody args (.records all) = .records rs := h
    unfold shapeBody at hbody
    rw [hfields] at hbody
    -- Without a limit all records stay, and with one the first of them.
    cases hlimit : args.integer? "limit" with
    | none =>
      rw [hlimit] at hbody
      obtain rfl := Body.records.inj hbody
      exact List.Subset.refl _
    | some n =>
      rw [hlimit] at hbody
      obtain rfl := Body.records.inj hbody
      exact List.take_subset _ _

namespace Bot

open AdOps.Action

/-- **A message and its list of fields.** Where a message that keeps all fields is answered with
records, the message with the word behind it that asks for fields is answered with a list and
changes nothing, and every field of the records is on the list or is one of the unlisted fields: the
tracker's clicks in the campaign stats of a network, and the tracker's fields of the widgets of a
linked campaign. -/
theorem fields_listed {b : Bot} {message listing : String} {c : Command} {today : Date}
    {d d' : Desk} {o : Outcome} {rs : List Record}
    (hwords : Text.words listing = Text.words message ++ ["/list-fields"])
    (hparse : b.parse message = .ok c) (hfields : c.args.list? "fields" = none)
    (hd : d.ListsFields) (hfaithful : d.tracker.Faithful)
    (hrun : (b.run today message).on d = (.ok o, d')) (hbody : o.body = .records rs) :
    ∃ names, (b.run today listing).on d = (.ok (.fieldList names), d) ∧
      ∀ r ∈ rs, ∀ name ∈ r.keys, name ∈ names ∨ c.Unlisted d name := by
  obtain ⟨c', o', hparse', rfl, hhandle⟩ := run_eq_ok b today message hrun
  obtain rfl : c' = c := Except.ok.inj (hparse'.symm.trans hparse)
  obtain ⟨all, hall, hsub⟩ := Outcome.records_of_shape hfields hbody
  -- The handler's two answers, the list and the records, are compared on one desk.
  obtain ⟨hdata, names, hlist, hknown⟩ :=
    Handler.tells_handle ⟨c', b.settings, today⟩ hd hfaithful o' d' all hhandle hall
  refine ⟨names, ?_, hknown.sub hsub⟩
  -- The words of the second line are those of the first and the flag, so the command is the same
  -- but for the switch.
  have hlisting : b.parse listing = .ok c'.listing := Command.parse_listing hwords hparse hdata
  rw [run_eq, hlisting]
  show (Invocation.handle ⟨c'.listing, b.settings, today⟩ >>= fun o =>
    pure (o.shape c'.listing.args)).on d = _
  rw [on_bind_ok (show (Invocation.handle ⟨c'.listing, b.settings, today⟩).on d =
    (.ok (.fieldList names), d) from hlist), Outcome.shape_fieldList]
  rfl

/-! The stats of a linked campaign show the tracker's clicks, and the list has its own name for
them. -/

namespace Linked

def bot : Bot := ⟨{}, Settings.valid_default⟩

def date : Date := ⟨15751, by decide⟩

def campaign : Record := NameMap.ofList [("id", .int 1), ("name", .string "7 Spring")]

def desk : Desk where
  mgid := some { data := { campaigns := [campaign], campaignStats := [campaign] } }
  tracker := { data :=
    { campaignStats := [NameMap.ofList [("id", .int 7), ("clicks", .int 40)]] } }

def text : String := "/mgid stats"

def listing : String := "/mgid stats /list-fields"

def isUnprojected : Except Failure Command → Bool
  | .ok c => (c.args.list? "fields").isNone
  | .error _ => false

def showsClicks : Except Failure Outcome → Bool
  | .ok ⟨.records rs, _⟩ => rs.any fun r => r.keys.contains Handler.trackerClicks
  | _ => false

def isText (s : String) : Except Failure Outcome → Bool
  | .ok ⟨.text s', _⟩ => s = s'
  | _ => false

end Linked

theorem fields_listed_linked :
    ∃ (rs : List Record) (names : List String), (∃ r ∈ rs, Handler.trackerClicks ∈ r.keys) ∧
      (Linked.bot.run Linked.date Linked.listing).on Linked.desk =
        (.ok (.fieldList names), Linked.desk) ∧
      (Outcome.fieldList names).body = .text "clicks\ncpa\nid\nname" ∧
      ∃ c, Linked.bot.parse Linked.text = .ok c ∧
        ∀ r ∈ rs, ∀ name ∈ r.keys, name ∈ names ∨ c.Unlisted Linked.desk name := by
  have hkeeps : Linked.isUnprojected (Linked.bot.parse Linked.text) = true := by decide +kernel
  have hshows : Linked.showsClicks
      ((Linked.bot.run Linked.date Linked.text).on Linked.desk).1 = true := by decide +kernel
  have hlists : Linked.isText "clicks\ncpa\nid\nname"
      ((Linked.bot.run Linked.date Linked.listing).on Linked.desk).1 = true := by decide +kernel
  have hwords : Text.words Linked.listing = Text.words Linked.text ++ ["/list-fields"] := by
    decide +kernel
  have hd : Linked.desk.ListsFields := fun _ _ _ _ => by simp [Linked.desk]
  have hfaithful : Linked.desk.tracker.Faithful := Tracker.faithful_of_names_empty rfl
  cases hparse : Linked.bot.parse Linked.text with
  | error e =>
    rw [hparse] at hkeeps
    exact absurd hkeeps (by simp [Linked.isUnprojected])
  | ok c =>
    rw [hparse] at hkeeps
    rcases hrun : (Linked.bot.run Linked.date Linked.text).on Linked.desk with ⟨result, d'⟩
    rw [hrun] at hshows
    unfold Linked.showsClicks at hshows
    split at hshows
    · next rs issues heq =>
      subst heq
      obtain ⟨names, hlist, hknown⟩ := fields_listed hwords hparse
        (Option.isNone_iff_eq_none.1 hkeeps) hd hfaithful hrun rfl
      obtain ⟨r, hr, hclicks⟩ := List.any_eq_true.1 hshows
      rw [hlist] at hlists
      exact ⟨rs, names, ⟨r, hr, List.contains_iff_mem.1 hclicks⟩, hlist,
        congrArg Body.text (of_decide_eq_true hlists).symm, c, rfl, hknown⟩
    · exact absurd hshows (by simp)

end Bot

end AdOps
