import AdOps.Proofs.Bot.Pausing
import AdOps.Proofs.CommandLine.Appended
import AdOps.Proofs.Handler.Coincidence
import Mathlib.Data.List.Nodup

/-!
# Flags that shape the output

Three flags shape the output of a command and do nothing else: `/fields` keeps some fields of the
records, `/limit` keeps the first so many of them, and `/ie` drops the issues. They can be written
behind any accepted line that carries none of them. No handler reads them, so the command runs as it
would have run without them, against whatever desk, and its outcome is shaped in the end.

* **`parse_line`** — the line with flags behind it stands for the command with their arguments.
* **`execute_shaped`** — the run of that command is the run of the command, shaped.
-/

namespace AdOps

/-- A flag that shapes the output, as it is written behind a line. -/
inductive OutputFlag where
  /-- A list of fields; some of them may be empty, but not all. -/
  | fields (value : String) (hvalue : Flag.fields.accepts value.toList = true)
    (hitem : ∃ item ∈ Text.splitChar ',' value.toList, item ≠ [])
  /-- A decimal number of 64 bits. -/
  | limit (value : String) (n : Int) (hvalue : Number.isNumeral value.toList = true)
    (hn : Number.integer? value = some n)
  | quiet

namespace OutputFlag

/-- The flag of the grammar that this is. -/
def flag : OutputFlag → Flag
  | fields .. => .fields
  | limit .. => .limit
  | quiet => .ignoreErrors

/-- The flag as it is typed. -/
def written : OutputFlag → String
  | fields value .. => "/fields:" ++ value
  | limit value .. => "/limit:" ++ value
  | quiet => "/ie"

/-- The line with the flags behind it, each after a blank. -/
def line (text : String) (flags : List OutputFlag) : String :=
  flags.foldl (fun text f => text ++ " " ++ f.written) text

/-- The items of a list, without the empty ones. -/
def items (value : String) : List String :=
  ((Text.splitChar ',' value.toList).filter (!·.isEmpty)).map String.ofList

/-- The fields that are listed. -/
def items? : OutputFlag → Option (List String)
  | fields value .. => some (items value)
  | _ => none

/-- How many records are kept, if it says so. -/
def count? : OutputFlag → Option Int
  | limit _ n .. => some n
  | _ => none

/-- Whether issues are left out. -/
def isQuiet : OutputFlag → Bool
  | quiet => true
  | _ => false

/-- What the flags leave of an outcome: of records the listed fields, and then the first so many; of
the issues all or none. A text is left alone. -/
def shape (flags : List OutputFlag) (o : Outcome) : Outcome where
  body := match o.body with
    | .records rs =>
      let kept := match flags.findSome? items? with
        | some items => Record.project false items rs
        | none => rs
      .records (match flags.findSome? count? with
        | some n => kept.take n.toNat
        | none => kept)
    | .text s => .text s
  issues := if flags.any isQuiet then [] else o.issues

/-! ## Flags as arguments

What is typed for such a flag is one word, and reading it gives one argument. These are the facts
about single flags; the rest of the module is about lists of them. -/

/-- The argument that the flag gives. -/
def arg : OutputFlag → Arg
  | fields value .. => .list (items value)
  | limit _ n .. => .integer n
  | quiet => .switch

theorem flag_mem (f : OutputFlag) : f.flag ∈ [Flag.fields, .limit, .ignoreErrors] := by
  cases f <;> simp [flag]

theorem isWindow_flag (f : OutputFlag) : f.flag.isWindow = false := by
  cases f <;> rfl

/-- A list is read as the items that are not empty, of which there is one at least. -/
theorem argument?_fields {value : String}
    (hitem : ∃ item ∈ Text.splitChar ',' value.toList, item ≠ []) :
    Flag.fields.argument? value = some (.list (items value)) := by
  obtain ⟨item, hmem, hne⟩ := hitem
  have hkept : item ∈ (Text.splitChar ',' value.toList).filter (!·.isEmpty) :=
    List.mem_filter.2 ⟨hmem, by simpa using hne⟩
  unfold Flag.argument? items
  dsimp only
  rw [if_neg]
  simpa using List.ne_nil_of_mem hkept

/-- The grammar accepts every numeral as a limit. -/
theorem accepts_limit {value : String} (h : Number.isNumeral value.toList = true) :
    Flag.limit.accepts value.toList = true := by
  obtain ⟨hne, hall⟩ := Bool.and_eq_true_iff.1 h
  exact Bool.and_eq_true_iff.2 ⟨hne, List.all_eq_true.2 fun c hc =>
    Text.isDigit_of_ascii (List.all_eq_true.1 hall c hc)⟩

/-- A flag is written as one segment. -/
theorem writtenBy (f : OutputFlag) : f.flag.WrittenBy f.arg f.written := by
  cases f with
  -- The value stands behind a colon, which makes one segment of it.
  | fields value hvalue hitem =>
    have hwritten : (fields value hvalue hitem).written =
        Marker.slash.mark ("fields" ++ ":" ++ value) := by
      show "/fields:" ++ value = "/" ++ ("fields" ++ ":" ++ value)
      rw [← String.append_assoc]
      rfl
    rw [hwritten]
    exact .of_segment (.colon .fields .slash "fields" value (by decide) hvalue) rfl
      (argument?_fields hitem)
  | limit value n hvalue hn =>
    have hwritten : (limit value n hvalue hn).written =
        Marker.slash.mark ("limit" ++ ":" ++ value) := by
      show "/limit:" ++ value = "/" ++ ("limit" ++ ":" ++ value)
      rw [← String.append_assoc]
      rfl
    rw [hwritten]
    refine .of_segment (.colon .limit .slash "limit" value (by decide) (accepts_limit hvalue)) rfl ?_
    show (Number.integer? value).map Arg.integer = _
    rw [hn]
    rfl
  | quiet =>
    exact .of_segment (.switch .ignoreErrors .slash "ie" rfl (by decide)) rfl rfl

/-- No character of a list of fields is a blank. -/
theorem isBlank_of_isFieldsChar {c : Char} (h : Flag.isFieldsChar c = true) :
    Text.isBlank c = false := by
  simp only [Flag.isFieldsChar, Bool.or_eq_true, decide_eq_true_eq] at h
  rcases h with ((((h | h) | rfl) | rfl) | rfl) | rfl
  · exact Text.isBlank_of_isLetter h
  · exact Text.isBlank_of_isDigit h
  all_goals decide

/-- What is written for a flag is one word. -/
theorem isWord_written (f : OutputFlag) : Text.IsWord f.written.toList := by
  -- A name with a value behind it is a word if neither of them has blanks.
  have hcolon : ∀ name value : String, Text.IsWord name.toList →
      (∀ c ∈ value.toList, Text.isBlank c = false) → Text.IsWord (name ++ value).toList := by
    intro name value hname hvalue
    rw [String.toList_append]
    exact ⟨List.append_ne_nil_of_left_ne_nil hname.1 _,
      List.forall_mem_append.2 ⟨hname.2, hvalue⟩⟩
  cases f with
  | fields value hvalue hitem =>
    have hall := (Bool.and_eq_true_iff.1 hvalue).2
    exact hcolon "/fields:" value (Text.isWord_of_all (by decide)) fun c hc =>
      isBlank_of_isFieldsChar (List.all_eq_true.1 hall c hc)
  | limit value n hvalue hn =>
    have hall := (Bool.and_eq_true_iff.1 hvalue).2
    exact hcolon "/limit:" value (Text.isWord_of_all (by decide)) fun c hc =>
      Text.isBlank_of_isDigit (List.all_eq_true.1 hall c hc)
  | quiet => exact Text.isWord_of_all (by decide)

/-! ## Lines and their commands

Writing flags behind a line adds their arguments to its command, one after the other. They must be
different flags, and the line must carry none of them, or a later argument would meet an earlier
one. -/

variable {s : Settings} {c : Command} {flags : List OutputFlag} {args : Arguments}

/-- The command with the arguments of the flags. -/
def withFlags (c : Command) (flags : List OutputFlag) : Command :=
  { c with args := flags.foldl (fun args f => args.insert f.flag.name f.arg) c.args }

/-- **The line with flags behind it** stands for the command with their arguments. -/
theorem parse_line {text : String} (h : Command.parse s text = .ok c)
    (hfree : ∀ f ∈ flags, c.args.get? f.flag.name = none) (honce : (flags.map flag).Nodup) :
    Command.parse s (line text flags) = .ok (withFlags c flags) := by
  -- Each flag is written behind a line that carries the flags before it, and none of its own.
  induction flags generalizing text c with
  | nil => exact h
  | cons f flags ih =>
    rw [List.map_cons] at honce
    obtain ⟨hnew, hrest⟩ := List.nodup_cons.1 honce
    obtain ⟨hf, hflags⟩ := List.forall_mem_cons.1 hfree
    have hone := Command.parse_appended f.writtenBy (Text.words_append_word text f.isWord_written) h
      f.isWindow_flag hf
    refine ih hone (fun g hg => ?_) hrest
    -- The other flags are still free, as their names are different.
    have hne : g.flag.name ≠ f.flag.name := fun heq =>
      hnew (Flag.eq_of_name_eq heq ▸ List.mem_map_of_mem hg)
    show (c.args.insert f.flag.name f.arg).get? g.flag.name = none
    rw [NameMap.get?_insert, if_neg hne, hflags g hg]

theorem get?_withFlags_of_ne {name : String} (h : ∀ f : OutputFlag, name ≠ f.flag.name) :
    (withFlags c flags).args.get? name = c.args.get? name :=
  NameMap.get?_foldl_of_forall (fun f _ m => by rw [NameMap.get?_insert, if_neg (h f)]) c.args

/-- What is held for a flag is its argument, if it is one of the flags. -/
theorem get?_withFlags (honce : (flags.map flag).Nodup) (f : Flag) :
    (withFlags c flags).args.get? f.name =
      ((flags.find? fun g => g.flag = f).map arg).or (c.args.get? f.name) := by
  unfold withFlags
  cases hfind : flags.find? fun g => g.flag = f with
  | none =>
    refine NameMap.get?_foldl_of_forall (fun g hg m => ?_) c.args
    have hne : f.name ≠ g.flag.name := fun heq =>
      List.find?_eq_none.1 hfind g hg (decide_eq_true (Flag.eq_of_name_eq heq).symm)
    rw [NameMap.get?_insert, if_neg hne]
  | some g =>
    have hfound := List.find?_some hfind
    obtain rfl : g.flag = f := of_decide_eq_true hfound
    -- Different flags store under different names.
    have hnames : (flags.map fun g => g.flag.name).Nodup := by
      have hinj := List.Nodup.map (fun f g h => Flag.eq_of_name_eq h) honce
      rwa [List.map_map] at hinj
    exact NameMap.get?_foldl_own (fun g : OutputFlag => g.flag.name) hnames
      (fun g _ (m : Arguments) name hne => by rw [NameMap.get?_insert, if_neg hne])
      (List.mem_of_find?_eq_some hfind) (fun _ => some g.arg)
      (fun m => by rw [NameMap.get?_insert, if_pos rfl]) c.args

/-- What is seen of a flag that was not held before is what the first of the flags shows that shows
anything. -/
theorem bind_get?_withFlags {α : Type} {f : Flag} {view : Arg → Option α}
    {own? : OutputFlag → Option α} (honce : (flags.map flag).Nodup)
    (hnone : c.args.get? f.name = none)
    (hown : ∀ g : OutputFlag, g.flag = f → own? g = view g.arg ∧ (own? g).isSome = true)
    (hother : ∀ g : OutputFlag, g.flag ≠ f → own? g = none) :
    ((withFlags c flags).args.get? f.name).bind view = flags.findSome? own? := by
  rw [get?_withFlags honce, hnone, Option.or_none]
  clear honce
  -- Induction on the flags: the first one of its own kind is the one that is seen.
  induction flags with
  | nil => rfl
  | cons g flags ih =>
    rw [List.find?_cons, List.findSome?_cons]
    by_cases hg : g.flag = f
    · obtain ⟨heq, hsome⟩ := hown g hg
      obtain ⟨v, hv⟩ := Option.isSome_iff_exists.1 hsome
      rw [hv, decide_eq_true hg]
      exact heq.symm.trans hv
    · rw [hother g hg, decide_eq_false hg]
      exact ih

/-- The listed fields are those of the flag. -/
theorem list?_withFlags (honce : (flags.map flag).Nodup) (hnone : c.args.get? "fields" = none) :
    (withFlags c flags).args.list? "fields" = flags.findSome? items? :=
  bind_get?_withFlags (f := .fields) honce hnone
    (fun g hg => by cases g <;> first | exact ⟨rfl, rfl⟩ | exact absurd hg (by simp [flag]))
    (fun g hg => by cases g <;> first | rfl | exact absurd rfl hg)

/-- The limit is that of the flag. -/
theorem integer?_withFlags (honce : (flags.map flag).Nodup) (hnone : c.args.get? "limit" = none) :
    (withFlags c flags).args.integer? "limit" = flags.findSome? count? :=
  bind_get?_withFlags (f := .limit) honce hnone
    (fun g hg => by cases g <;> first | exact ⟨rfl, rfl⟩ | exact absurd hg (by simp [flag]))
    (fun g hg => by cases g <;> first | rfl | exact absurd rfl hg)

/-- The switch is on if one of the flags is the quiet one. -/
theorem switch_withFlags (honce : (flags.map flag).Nodup)
    (hnone : c.args.get? "ignore_errors" = none) :
    (withFlags c flags).args.switch "ignore_errors" = flags.any isQuiet := by
  have hheld : (withFlags c flags).args.get? "ignore_errors" = _ :=
    get?_withFlags honce .ignoreErrors
  have hquiet : isQuiet = fun g => decide (g.flag = .ignoreErrors) := by
    funext g
    cases g <;> rfl
  unfold Arguments.switch
  rw [hheld, show c.args.get? Flag.ignoreErrors.name = none from hnone, Option.or_none, hquiet,
    ← List.isSome_find?]
  cases hfind : flags.find? fun g => g.flag = .ignoreErrors with
  | none => rfl
  | some g =>
    have hfound := List.find?_some hfind
    replace hfound : g.flag = .ignoreErrors := of_decide_eq_true hfound
    cases g with
    | quiet => rfl
    | _ => exact absurd hfound (by simp [flag])

/-- **The arguments of the flags shape an outcome** as the flags do. -/
theorem shape_withFlags
    (hfree : ∀ f ∈ [Flag.fields, .limit, .ignoreErrors], c.args.get? f.name = none)
    (honce : (flags.map flag).Nodup) (o : Outcome) :
    o.shape (withFlags c flags).args = shape flags (o.shape c.args) := by
  have hfields : c.args.get? "fields" = none := hfree .fields (by simp)
  have hlimit : c.args.get? "limit" = none := hfree .limit (by simp)
  have hquiet : c.args.get? "ignore_errors" = none := hfree .ignoreErrors (by simp)
  -- Without the flags an outcome is left as it is.
  have hsame : o.shape c.args = o := by
    obtain ⟨body, issues⟩ := o
    cases body <;>
      simp [Outcome.shape, Outcome.shapeBody, Arguments.list?, Arguments.integer?, Arguments.switch,
        hfields, hlimit, hquiet, Record.project]
  rw [hsame]
  obtain ⟨body, issues⟩ := o
  unfold Outcome.shape shape
  rw [switch_withFlags honce hquiet]
  -- A text is left alone by both shapings.
  cases body with
  | text text => rfl
  | records rs =>
    unfold Outcome.shapeBody
    rw [list?_withFlags honce hfields, integer?_withFlags honce hlimit]
    cases flags.findSome? items? <;> rfl

end OutputFlag

/-! ## Runs

No handler reads the three arguments, so the handler of the longer line is the handler of the
shorter one, and all that the flags do is shape what it comes to. -/

namespace Bot

open AdOps.Action

variable {b : Bot} {c : Command} {flags : List OutputFlag}

/-- No handler sees the flags. -/
theorem handle_withFlags (c : Command) (flags : List OutputFlag) (s : Settings) (today : Date) :
    Invocation.handle ⟨OutputFlag.withFlags c flags, s, today⟩ =
      Invocation.handle ⟨c, s, today⟩ := by
  refine Invocation.handle_congr ⟨rfl, rfl, rfl, rfl, fun name hname => ?_⟩
  -- The three names are on the list of those that no handler reads.
  have hunread : ∀ f ∈ [Flag.fields, .limit, .ignoreErrors], f.name ∈ Invocation.unread := by
    decide
  exact OutputFlag.get?_withFlags_of_ne fun f heq => hname (heq ▸ hunread f.flag f.flag_mem)

/-- **Flags that shape the output only shape the output.** An accepted line that carries none of
them is accepted with any of them behind it, each at most once. On every desk the run of the longer
line fails with the failure of the shorter one or succeeds with its outcome, shaped, and leaves the
same desk. -/
theorem execute_shaped (b : Bot) (today : Date) {text : String} {c : Command}
    (hparse : b.parse text = .ok c)
    (hfree : ∀ f ∈ [Flag.fields, .limit, .ignoreErrors], c.args.get? f.name = none)
    (flags : List OutputFlag) (honce : (flags.map OutputFlag.flag).Nodup) :
    ∃ c', b.parse (OutputFlag.line text flags) = .ok c' ∧ ∀ d,
      (b.execute today c').on d =
        (((b.execute today c).on d).1.map (OutputFlag.shape flags), ((b.execute today c).on d).2) := by
  refine ⟨OutputFlag.withFlags c flags,
    OutputFlag.parse_line hparse (fun f _ => hfree f.flag f.flag_mem) honce, fun d => ?_⟩
  have hexecute : ∀ c : Command, b.execute today c =
      Invocation.handle ⟨c, b.settings, today⟩ >>= fun o => pure (o.shape c.args) := fun _ => rfl
  rw [hexecute, hexecute, handle_withFlags]
  rcases hrun : (Invocation.handle ⟨c, b.settings, today⟩).on d with ⟨r, d'⟩
  cases r with
  -- A failure is not shaped.
  | error e =>
    rw [on_bind_error hrun, on_bind_error hrun]
    rfl
  | ok o =>
    rw [on_bind_ok hrun, on_bind_ok hrun, OutputFlag.shape_withFlags hfree honce]
    rfl

/-! A line that pauses widgets, with all three flags behind it. -/

namespace Shaped

def bot : Bot := ⟨{}, Settings.valid_default⟩

def date : Date := ⟨15753, by decide⟩

def text : String := "/mgid widgets-kill-longtail 1 5"

def written : List OutputFlag :=
  [.limit "2" 2 (by decide) (by decide), .quiet,
    .fields "id,,status" (by decide) ⟨"id".toList, by decide, by decide⟩]

end Shaped

theorem execute_shaped_kill :
    ∃ c c', Shaped.bot.parse Shaped.text = .ok c ∧
      Shaped.bot.parse "/mgid widgets-kill-longtail 1 5 /limit:2 /ie /fields:id,,status" = .ok c' ∧
      ∀ d, (Shaped.bot.execute Shaped.date c').on d =
        (((Shaped.bot.execute Shaped.date c).on d).1.map (OutputFlag.shape Shaped.written),
          ((Shaped.bot.execute Shaped.date c).on d).2) := by
  have hfree : (Shaped.bot.parse Shaped.text).toOption.any (fun c =>
      [Flag.fields, .limit, .ignoreErrors].all fun f => (c.args.get? f.name).isNone) = true := by
    decide +kernel
  obtain ⟨c, hread, hnone⟩ := (Option.any_eq_true _ _).1 hfree
  have hparse : Shaped.bot.parse Shaped.text = .ok c := toOption_eq_some_iff.1 hread
  obtain ⟨c', hlonger, hrun⟩ := execute_shaped Shaped.bot Shaped.date hparse
    (fun f hf => Option.isNone_iff_eq_none.1 (List.all_eq_true.1 hnone f hf)) Shaped.written
    (by decide)
  exact ⟨c, c', hparse, hlonger, hrun⟩

end Bot

end AdOps
