import AdOps.Proofs.Service.Lasting

/-!
# What actions do to a desk

An action takes a desk to a result and a desk. Three properties are put together along the way an
action is written:

* `Steady` — on alike desks it has one result and leaves alike desks.
* `Reads` — it is steady and leaves what lasts of a desk as it was, whether it fails or not.
* `Atomic` — if it fails, what lasts of the desk is as it was.
* `Gives P` — whatever it succeeds with has the property `P`.
* `GivesOn d P` — so it does on the desks that are alike to `d`.
-/

namespace AdOps.Action

variable {α β : Type}

/-- What an action comes to on a desk: its result, and the desk afterwards. -/
def on (x : Action α) (d : Desk) : Except Failure α × Desk := x.run.run d

/-! ## Running

An action that fails stops there, and what it did to the desk before stays done. So a sequence is
told by what its first part comes to. -/

theorem on_pure (a : α) (d : Desk) : (pure a : Action α).on d = (.ok a, d) := rfl

theorem on_throw (e : Failure) (d : Desk) : (throw e : Action α).on d = (.error e, d) := rfl

theorem on_lift (r : Except Failure α) (d : Desk) : (liftM r : Action α).on d = (r, d) := rfl

theorem on_get (d : Desk) : (get : Action Desk).on d = (.ok d, d) := rfl

/-- A sequence goes on with what its first part gives, on the desk that it leaves, or ends with its
failure. -/
theorem on_bind (x : Action α) (f : α → Action β) (d : Desk) :
    (x >>= f).on d =
      match x.on d with
      | (.ok a, d') => (f a).on d'
      | (.error e, d') => (.error e, d') := by
  unfold on
  simp only [ExceptT.run_bind, StateT.run_bind]
  rcases (ExceptT.run x).run d with ⟨r, d'⟩
  cases r <;> rfl

theorem on_bind_ok {x : Action α} {d d' : Desk} {a : α} (h : x.on d = (.ok a, d'))
    (f : α → Action β) : (x >>= f).on d = (f a).on d' := by
  rw [on_bind, h]

/-- A sequence whose first part gives something goes on from there. -/
theorem on_bind_of_fst {x : Action α} {d : Desk} {a : α} (h : (x.on d).1 = .ok a)
    (f : α → Action β) : (x >>= f).on d = (f a).on (x.on d).2 :=
  on_bind_ok (Prod.ext h rfl) f

theorem on_bind_error {x : Action α} {d d' : Desk} {e : Failure} (h : x.on d = (.error e, d'))
    (f : α → Action β) : (x >>= f).on d = (.error e, d') := by
  rw [on_bind, h]

/-- A sequence succeeds if its first part does, and then the rest. -/
theorem on_bind_eq_ok {x : Action α} {f : α → Action β} {d d₂ : Desk} {b : β} :
    (x >>= f).on d = (.ok b, d₂) ↔
      ∃ a d₁, x.on d = (.ok a, d₁) ∧ (f a).on d₁ = (.ok b, d₂) := by
  constructor
  · intro h
    rcases hx : x.on d with ⟨r, d₁⟩
    cases r with
    | ok a => exact ⟨a, d₁, rfl, by rwa [on_bind_ok hx] at h⟩
    | error e =>
      rw [on_bind_error hx] at h
      exact absurd h (by simp)
  · rintro ⟨a, d₁, hx, hf⟩
    rw [on_bind_ok hx, hf]

/-- What follows a result that is not used happens on the same desk. -/
theorem on_discard (x : Action α) (d : Desk) :
    (discard x).on d = ((x.on d).1.map fun _ => (), (x.on d).2) := by
  show (x >>= fun _ => pure ()).on d = _
  rw [on_bind]
  rcases x.on d with ⟨_ | _, d'⟩ <;> rfl

theorem on_lift_eq_ok {r : Except Failure α} {d d' : Desk} {a : α}
    (h : (liftM r : Action α).on d = (.ok a, d')) : r = .ok a ∧ d = d' := by
  rw [on_lift] at h
  exact Prod.mk.inj h

theorem on_pure_eq_ok {a b : α} {d d' : Desk} (h : (pure a : Action α).on d = (.ok b, d')) :
    a = b ∧ d = d' := by
  rw [on_pure] at h
  obtain ⟨hr, hd⟩ := Prod.mk.inj h
  exact ⟨Except.ok.inj hr, hd⟩

theorem on_throw_ne_ok {e : Failure} {d d' : Desk} {a : α} :
    (throw e : Action α).on d ≠ (.ok a, d') := by
  rw [on_throw]
  exact fun h => absurd (Prod.mk.inj h).1 (by simp)

/-! ## Steady actions

Windows and remembered names differ between alike desks. An action is steady if that cannot show in
what it gives, and if it makes no other difference. -/

/-- On alike desks the action has one result and leaves alike desks. -/
def Steady (x : Action α) : Prop :=
  ∀ d₁ d₂, Desk.Alike d₁ d₂ → (x.on d₁).1 = (x.on d₂).1 ∧ Desk.Alike (x.on d₁).2 (x.on d₂).2

theorem Steady.pure (a : α) : Steady (pure a : Action α) := fun _ _ h => ⟨rfl, h⟩

theorem Steady.throw (e : Failure) : Steady (throw e : Action α) := fun _ _ h => ⟨rfl, h⟩

theorem Steady.lift (r : Except Failure α) : Steady (liftM r : Action α) := fun _ _ h => ⟨rfl, h⟩

/-- Steady actions can be put in sequence. -/
theorem Steady.bind {x : Action α} {f : α → Action β} (hx : Steady x) (hf : ∀ a, Steady (f a)) :
    Steady (x >>= f) := by
  intro d₁ d₂ h
  obtain ⟨hr, hd⟩ := hx d₁ d₂ h
  rcases h₁ : x.on d₁ with ⟨r, d₁'⟩
  rcases h₂ : x.on d₂ with ⟨r', d₂'⟩
  rw [h₁, h₂] at hr hd
  -- Both sides fail with one failure, or go on with one value.
  obtain rfl : r = r' := hr
  cases r with
  | ok a =>
    rw [on_bind_ok h₁, on_bind_ok h₂]
    exact hf a d₁' d₂' hd
  | error e =>
    rw [on_bind_error h₁, on_bind_error h₂]
    exact ⟨rfl, hd⟩

/-! ## Reading actions

Most calls only ask. They may note a window or list the campaigns, and nothing that lasts is changed
even if they fail, so what follows finds the desk as good as it was. -/

/-- The action is steady and leaves what lasts of a desk as it was. -/
structure Reads (x : Action α) : Prop where
  steady : Steady x
  lasting : ∀ d, (x.on d).2.lasting = d.lasting

namespace Reads

theorem lasting_eq {x : Action α} (hx : Reads x) {d d' : Desk} {r : Except Failure α}
    (h : x.on d = (r, d')) : d'.lasting = d.lasting := by
  have hd := hx.lasting d
  rwa [h] at hd

theorem pure (a : α) : Reads (pure a : Action α) := ⟨.pure a, fun _ => rfl⟩

theorem throw (e : Failure) : Reads (throw e : Action α) := ⟨.throw e, fun _ => rfl⟩

theorem lift (r : Except Failure α) : Reads (liftM r : Action α) := ⟨.lift r, fun _ => rfl⟩

/-- Reading actions can be put in sequence. -/
theorem bind {x : Action α} {f : α → Action β} (hx : Reads x) (hf : ∀ a, Reads (f a)) :
    Reads (x >>= f) where
  steady := hx.steady.bind fun a => (hf a).steady
  lasting d := by
    have hd := hx.lasting d
    rcases h : x.on d with ⟨r, d'⟩
    rw [h] at hd
    cases r with
    | ok a =>
      rw [on_bind_ok h, (hf a).lasting d']
      exact hd
    | error e =>
      rw [on_bind_error h]
      exact hd

/-- An alike desk stays alike. -/
theorem alike {x : Action α} (hx : Reads x) {d d₀ d' : Desk} {r : Except Failure α}
    (h : Desk.Alike d d₀) (hon : x.on d = (r, d')) : Desk.Alike d' d₀ where
  lasting_eq := (hx.lasting_eq hon).trans h.lasting_eq
  left := by
    have hself := (hx.steady d d (.refl h.left)).2
    rw [hon] at hself
    exact hself.left
  right := h.right

theorem alike_on {x : Action α} (hx : Reads x) {d d₀ : Desk} (h : Desk.Alike d d₀) :
    Desk.Alike (x.on d).2 d₀ :=
  hx.alike h rfl

/-- An action that reads for each item reads. -/
theorem mapM {f : α → Action β} (hf : ∀ a, Reads (f a)) (items : List α) :
    Reads (items.mapM f) := by
  induction items with
  | nil =>
    rw [List.mapM_nil]
    exact .pure []
  | cons a items ih =>
    rw [List.mapM_cons]
    exact (hf a).bind fun b => ih.bind fun bs => .pure (b :: bs)

/-- Where each item only reads, and gives something on every desk that is as good as this one, all
items together give all of it. -/
theorem fst_on_mapM {f : α → Action β} {g : α → β} {d₀ : Desk} (hf : ∀ a, Reads (f a))
    (h : ∀ a d, Desk.Alike d d₀ → ((f a).on d).1 = .ok (g a)) (items : List α) {d : Desk}
    (hd : Desk.Alike d d₀) : ((items.mapM f).on d).1 = .ok (items.map g) := by
  -- Induction on the items. The first leaves another desk that is as good, so `d` is any such desk.
  induction items generalizing d with
  | nil =>
    rw [List.mapM_nil]
    rfl
  | cons a items ih =>
    have hrest := ih ((hf a).alike_on hd)
    rw [List.mapM_cons, on_bind_of_fst (h a d hd), on_bind_of_fst hrest]
    rfl

/-- Where the first part only reads, the whole comes to a failure on a desk of which the same lasts,
or goes on from such a desk. -/
theorem on_bind_cases {x : Action α} (hx : Reads x) (f : α → Action β) (d : Desk) :
    (∃ e d', (x >>= f).on d = (.error e, d') ∧ d'.lasting = d.lasting) ∨
      ∃ a d', x.on d = (.ok a, d') ∧ d'.lasting = d.lasting ∧ (x >>= f).on d = (f a).on d' := by
  have hd := hx.lasting d
  rcases h : x.on d with ⟨r, d'⟩
  rw [h] at hd
  cases r with
  | ok a => exact .inr ⟨a, d', rfl, hd, on_bind_ok h f⟩
  | error e => exact .inl ⟨e, d', on_bind_error h f, hd⟩

end Reads

/-! ## Atomic actions

What acts on a network comes last in a command. Up to there the command reads, so it is atomic if
its last part is. -/

/-- If the action fails, what lasts of the desk is as it was. -/
def Atomic (x : Action α) : Prop :=
  ∀ d e d', x.on d = (.error e, d') → d'.lasting = d.lasting

/-- A reading action is atomic, as it changes nothing that lasts in any case. -/
theorem Reads.atomic {x : Action α} (hx : Reads x) : Atomic x := by
  intro d e d' h
  exact hx.lasting_eq h

/-- An action is atomic if it reads first and is atomic from there on. -/
theorem Atomic.bind {x : Action α} {f : α → Action β} (hx : Reads x) (hf : ∀ a, Atomic (f a)) :
    Atomic (x >>= f) := by
  intro d e d' h
  rcases hx.on_bind_cases f d with ⟨e₁, d₁, hon, hd⟩ | ⟨a, d₁, -, hd, hon⟩
  · rw [hon] at h
    obtain ⟨-, rfl⟩ := Prod.mk.inj h
    exact hd
  · -- The second part fails, on a desk of which the same lasts.
    rw [hon] at h
    rw [hf a d₁ e d' h, hd]

/-- What is made of the result of an atomic action takes nothing from it. -/
theorem Atomic.bind_pure {x : Action α} (hx : Atomic x) (g : α → β) :
    Atomic (x >>= fun a => pure (g a)) := by
  intro d e d' h
  rcases hon : x.on d with ⟨r, d₁⟩
  cases r with
  | ok a =>
    rw [on_bind_ok hon, on_pure] at h
    exact absurd (Prod.mk.inj h).1 (by simp)
  | error e₁ =>
    rw [on_bind_error hon] at h
    obtain ⟨-, rfl⟩ := Prod.mk.inj h
    exact hx d e₁ d₁ hon

/-! ## What actions give

Properties of results go through a sequence from its first part to its last. Where the first part
only reads, what it gives can be told from the desk at the start. -/

/-- If the action succeeds, what it gives has the property. -/
def Gives (P : α → Prop) (x : Action α) : Prop := ∀ d a d', x.on d = (.ok a, d') → P a

namespace Gives

variable {P : α → Prop} {Q : β → Prop}

theorem pure {a : α} (h : P a) : Gives P (pure a : Action α) := by
  intro d b d' hon
  obtain ⟨rfl, -⟩ := on_pure_eq_ok hon
  exact h

theorem throw (e : Failure) : Gives P (throw e : Action α) := fun _ _ _ h => absurd h on_throw_ne_ok

/-- What a sequence gives is what its last part gives. -/
theorem bind (x : Action α) {f : α → Action β} (hf : ∀ a, Gives Q (f a)) :
    Gives Q (x >>= f) := by
  intro d b d' hon
  obtain ⟨a, d₁, -, hfa⟩ := on_bind_eq_ok.1 hon
  exact hf a d₁ b d' hfa

end Gives

/-- Whatever the action succeeds with on desks that are alike to this one has the property. -/
def GivesOn (d₀ : Desk) (P : α → Prop) (x : Action α) : Prop :=
  ∀ d a d', Desk.Alike d d₀ → x.on d = (.ok a, d') → P a

namespace GivesOn

variable {d₀ : Desk} {P : α → Prop} {Q : β → Prop}

/-- A reading action gives on alike desks what it gives on this one. -/
theorem of_reads {x : Action α} (hx : Reads x) (h : ∀ a d', x.on d₀ = (.ok a, d') → P a) :
    GivesOn d₀ P x := by
  intro d a d' halike hon
  have hsame := (hx.steady d d₀ halike).1
  rw [hon] at hsame
  exact h a (x.on d₀).2 (Prod.ext hsame.symm rfl)

theorem pure {a : α} (h : P a) : GivesOn d₀ P (pure a : Action α) := by
  intro d b d' _ hon
  obtain ⟨rfl, -⟩ := on_pure_eq_ok hon
  exact h

theorem throw (e : Failure) : GivesOn d₀ P (throw e : Action α) :=
  fun _ _ _ _ h => absurd h on_throw_ne_ok

theorem lift (r : Except Failure α) : GivesOn d₀ (fun a => r = .ok a) (liftM r : Action α) :=
  fun _ _ _ _ h => (on_lift_eq_ok h).1

theorem mono {P' : α → Prop} {x : Action α} (hx : GivesOn d₀ P x) (h : ∀ a, P a → P' a) :
    GivesOn d₀ P' x :=
  fun d a d' halike hon => h a (hx d a d' halike hon)

/-- What a sequence gives, where its first part only reads and gives what has a property. -/
theorem bind {x : Action α} {f : α → Action β} (hreads : Reads x) (hx : GivesOn d₀ P x)
    (hf : ∀ a, P a → GivesOn d₀ Q (f a)) : GivesOn d₀ Q (x >>= f) := by
  intro d b d' halike hon
  obtain ⟨a, d₁, hxa, hfa⟩ := on_bind_eq_ok.1 hon
  exact hf a (hx d a d₁ halike hxa) d₁ b d' (hreads.alike halike hxa) hfa

/-- What goes before does not matter, as long as it only reads. -/
theorem after {x : Action α} {f : α → Action β} (hreads : Reads x)
    (hf : ∀ a, GivesOn d₀ Q (f a)) : GivesOn d₀ Q (x >>= f) :=
  bind (P := fun _ => True) hreads (fun _ _ _ _ _ => trivial) fun a _ => hf a

/-- What follows does not matter for what is true of the desk. -/
theorem first {q : Prop} {x : Action α} {f : α → Action β} (hx : GivesOn d₀ (fun _ => q) x) :
    GivesOn d₀ (fun _ => q) (x >>= f) := by
  intro d b d' halike hon
  obtain ⟨a, d₁, hxa, -⟩ := on_bind_eq_ok.1 hon
  exact hx d a d₁ halike hxa

/-- Each item gives what has the property. -/
theorem mapM {f : α → Action β} (hreads : ∀ a, Reads (f a)) {items : List α}
    (hf : ∀ a ∈ items, GivesOn d₀ Q (f a)) :
    GivesOn d₀ (fun bs => ∀ b ∈ bs, Q b) (items.mapM f) := by
  induction items with
  | nil =>
    rw [List.mapM_nil]
    exact .pure fun b hb => absurd hb List.not_mem_nil
  | cons a items ih =>
    obtain ⟨ha, hitems⟩ := List.forall_mem_cons.1 hf
    rw [List.mapM_cons]
    exact .bind (hreads a) ha fun b hb => .bind (.mapM hreads items) (ih hitems) fun bs hbs =>
      .pure (List.forall_mem_cons.2 ⟨hb, hbs⟩)

end GivesOn

end AdOps.Action
