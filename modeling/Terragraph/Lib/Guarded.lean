/-
Module: Terragraph.Lib.Guarded
Purpose: Stateful programs that may throw and keep the state they reached when they do.
Trusted boundary: none
Main exports: failIf, Preserves
-/
import Mathlib

namespace Guarded

open List EStateM

variable {ε σ α β : Type}

def failIf (violated : Prop) [Decidable violated] (error : ε) : Except ε Unit :=
  if violated then .error error else .ok ()

/-- Run a function that reads the state and may throw, but never changes it. -/
def check (read : σ → Except ε α) : EStateM ε σ α := fun s =>
  match read s with
  | .ok a => .ok a s
  | .error e => .error e s

/-! ### Inversion of successful runs -/

variable {violated : Prop}

@[simp] theorem failIf_eq_ok [Decidable violated] {error : ε} {u : Unit} :
    failIf violated error = .ok u ↔ ¬ violated := by
  unfold failIf
  split <;> simp_all

variable {b : β} {f : α → Except ε β}

theorem except_bind_eq_ok {x : Except ε α} :
    (x >>= f) = .ok b ↔ ∃ a, x = .ok a ∧ f a = .ok b := by
  cases x with
  | error e | ok a => simp [bind, Except.bind]

@[simp] theorem failIf_bind_eq_ok [Decidable violated] {error : ε} {f : Unit → Except ε β} :
    (failIf violated error >>= f) = .ok b ↔ ¬ violated ∧ f () = .ok b := by
  rw [except_bind_eq_ok]
  exact ⟨fun ⟨_, passed, rest⟩ => ⟨failIf_eq_ok.mp passed, rest⟩,
    fun ⟨passed, rest⟩ => ⟨(), failIf_eq_ok.mpr passed, rest⟩⟩

variable {e : ε}

theorem except_bind_eq_error {x : Except ε α} :
    (x >>= f) = .error e ↔ x = .error e ∨ ∃ a, x = .ok a ∧ f a = .error e := by
  cases x with
  | error e | ok a => simp [bind, Except.bind]

theorem failIf_eq_error [Decidable violated] {error e : ε} :
    failIf violated error = .error e ↔ violated ∧ e = error := by
  unfold failIf
  split
  · next isViolated => simp [isViolated, eq_comm]
  · next passed => simp [passed]

variable {ι : Type} {items : List ι} {body : ι → Except ε Unit}

theorem except_forM_eq_ok {u : Unit} :
    forM items body = .ok u ↔ ∀ item ∈ items, body item = .ok () := by
  induction items with
  | nil => simp [pure, Except.pure]
  | cons _ _ ih =>
    rw [forM_cons, except_bind_eq_ok, forall_mem_cons, ← ih]
    exact ⟨fun ⟨_, both⟩ => both, fun both => ⟨⟨⟩, both⟩⟩

theorem except_forM_eq_error (thrown : forM items body = .error e) :
    ∃ item ∈ items, body item = .error e := by
  induction items with
  | nil => cases thrown
  | cons item _ ih =>
    rw [forM_cons, except_bind_eq_error] at thrown
    rcases thrown with first | ⟨_, _, rest⟩
    · exact ⟨item, by simp, first⟩
    · obtain ⟨next, member, later⟩ := ih rest
      exact ⟨next, by simp [member], later⟩

variable {body : ι → Except ε β}

theorem except_mapM_eq_ok {results : List β} :
    items.mapM body = .ok results ↔
      List.Forall₂ (fun item result => body item = .ok result) items results := by
  induction items generalizing results with
  | nil => simp [pure, Except.pure, eq_comm]
  | cons _ _ ih =>
    rw [mapM_cons, except_bind_eq_ok]
    constructor
    · intro ⟨_, first, rest⟩
      obtain ⟨_, collected, final⟩ := except_bind_eq_ok.mp rest
      cases final
      exact .cons first (ih.mp collected)
    · intro related
      cases related with
      | cons first rest =>
        exact ⟨_, first, except_bind_eq_ok.mpr ⟨_, ih.mpr rest, rfl⟩⟩

/-- Loop rule for a loop over `Except`: what every iteration keeps holds of the result. -/
theorem except_foldlM_preserves {body : β → ι → Except ε β} (property : β → Prop) {b b' : β}
    (holds : property b) (folded : items.foldlM body b = .ok b')
    (each : ∀ b item b', property b → body b item = .ok b' → property b') : property b' := by
  induction items generalizing b with
  | nil =>
    cases folded
    exact holds
  | cons item _ ih =>
    rw [foldlM_cons] at folded
    obtain ⟨next, first, rest⟩ := except_bind_eq_ok.mp folded
    exact ih (each b item next holds first) rest

theorem except_mapM_forall {results : List β} {P : β → Prop}
    (collected : items.mapM body = .ok results)
    (guaranteed : ∀ item result, body item = .ok result → P result) :
    ∀ result ∈ results, P result := by
  have related := (except_mapM_eq_ok.mp collected).imp fun item result passed =>
    And.intro (guaranteed item result passed) trivial
  exact ((forall₂_and_left _ _).mp related.flip).1

variable {x : EStateM ε σ α} {f : α → EStateM ε σ β} {s s' : σ}

theorem bind_eq_ok :
    (x >>= f).run s = .ok b s' ↔ ∃ a t, x.run s = .ok a t ∧ (f a).run t = .ok b s' := by
  rw [run_bind]
  cases outcome : x.run s with
  | ok => simp [and_assoc]
  | error => simp

theorem bind_eq_error : (x >>= f).run s = .error e s' ↔
      x.run s = .error e s' ∨ ∃ a t, x.run s = .ok a t ∧ (f a).run t = .error e s' := by
  rw [run_bind]
  cases outcome : x.run s with
  | ok => simp [and_assoc]
  | error => simp

variable {read : σ → Except ε α}

@[simp] theorem check_eq_ok {a : α} :
    (check read).run s = .ok a s' ↔ read s = .ok a ∧ s' = s := by
  cases outcome : read s with
  | ok => simp [run, check, outcome, eq_comm]
  | error => simp [run, check, outcome]

@[simp] theorem check_bind_eq_ok :
    (check read >>= f).run s = .ok b s' ↔ ∃ a, read s = .ok a ∧ (f a).run s = .ok b s' := by
  rw [bind_eq_ok]
  constructor
  · rintro ⟨a, t, passed, rest⟩
    obtain ⟨value, rfl⟩ := check_eq_ok.mp passed
    exact ⟨a, value, rest⟩
  · rintro ⟨a, value, rest⟩
    exact ⟨a, s, check_eq_ok.mpr ⟨value, rfl⟩, rest⟩

variable {a : α}

theorem run_check_bind (passes : read s = .ok a) : (check read >>= f).run s = (f a).run s := by
  rw [run_bind]
  simp [run, check, passes]

theorem check_bind_eq_error : (check read >>= f).run s = .error e s' ↔
      (read s = .error e ∧ s' = s) ∨ ∃ a, read s = .ok a ∧ (f a).run s = .error e s' := by
  rw [run_bind]
  cases outcome : read s with
  | ok => simp [run, check, outcome]
  | error => simp [run, check, outcome, eq_comm]

@[simp] theorem modify_eq_ok {f : σ → σ} {u : PUnit} :
    (modify f : EStateM ε σ PUnit).run s = .ok u s' ↔ s' = f s := by
  constructor
  · intro run
    cases run
    rfl
  · intro final
    rw [final]
    rfl

variable {g : PUnit → EStateM ε σ β}

@[simp] theorem modify_bind_eq_ok {f : σ → σ} :
    ((modify f : EStateM ε σ PUnit) >>= g).run s = .ok b s' ↔ (g ⟨⟩).run (f s) = .ok b s' :=
  Iff.rfl

@[simp] theorem get_bind_eq_ok {g : σ → EStateM ε σ β} :
    ((get : EStateM ε σ σ) >>= g).run s = .ok b s' ↔ (g s).run s = .ok b s' :=
  Iff.rfl

theorem run_tryCatch (x : EStateM ε σ α) (handler : ε → EStateM ε σ α) (s : σ) :
    (tryCatch x handler).run s = match x.run s with
      | .ok a s' => .ok a s'
      | .error e s' => (handler e).run s' := by
  have caught : (tryCatch x handler).run s = EStateM.tryCatch x handler s := rfl
  rw [caught, EStateM.tryCatch]
  unfold EStateM.run
  cases x s with
  | ok a s' | error e s' => rfl

theorem discard_eq_ok {u : PUnit} (run : (discard x : EStateM ε σ PUnit).run s = .ok u s') :
    ∃ a, x.run s = .ok a s' := by
  have bound : (x >>= fun _ => pure u : EStateM ε σ PUnit).run s = .ok u s' := run
  obtain ⟨a, t, ran, rest⟩ := bind_eq_ok.mp bound
  cases rest
  exact ⟨a, ran⟩

theorem run_discard (ran : x.run s = .ok a s') :
    (discard x : EStateM ε σ PUnit).run s = .ok ⟨⟩ s' := by
  have bound : (x >>= fun _ => pure ⟨⟩ : EStateM ε σ PUnit).run s = .ok ⟨⟩ s' :=
    bind_eq_ok.mpr ⟨a, s', ran, rfl⟩
  exact bound

theorem discard_eq_error (ran : x.run s = .error e s') :
    (discard x : EStateM ε σ PUnit).run s = .error e s' := by
  have bound : (x >>= fun _ => pure ⟨⟩ : EStateM ε σ PUnit).run s = .error e s' :=
    bind_eq_error.mpr (.inl ran)
  exact bound

/-! ### Deciding what holds of a result -/

instance decidableForallOk {P : α → Prop} [DecidablePred P] :
    ∀ result : Except ε α, Decidable (∀ a, result = .ok a → P a)
  | .ok a => decidable_of_iff (P a) (by simp)
  | .error e => isTrue (by simp)

instance decidableForallSome {P : α → Prop} [DecidablePred P] :
    ∀ result : Option α, Decidable (∀ a, result = some a → P a)
  | some a => decidable_of_iff (P a) (by simp)
  | none => isTrue (by simp)

instance decidableForallRun {P : σ → Prop} [DecidablePred P] :
    ∀ result : EStateM.Result ε σ Unit, Decidable (∀ s, result = .ok () s → P s)
  | .ok () s => decidable_of_iff (P s) (by simp)
  | .error e s => isTrue (by simp)

instance decidableExistsError [DecidableEq ε] {P : σ → Prop} [DecidablePred P] {e : ε} :
    ∀ result : EStateM.Result ε σ α, Decidable (∃ s, result = .error e s ∧ P s)
  | .ok a s => isFalse (by simp)
  | .error e' s => decidable_of_iff (e' = e ∧ P s) (by simp [and_assoc])

def returns : EStateM.Result ε σ α → Bool
  | .ok _ _ => true
  | .error _ _ => false

def finalState : EStateM.Result ε σ α → σ
  | .ok _ state => state
  | .error _ state => state

variable {result : EStateM.Result ε σ α}

theorem exists_of_returns (isOk : returns result = true) :
    ∃ value state, result = .ok value state := by
  cases result with
  | ok value state => exact ⟨value, state, rfl⟩
  | error => cases isOk

theorem not_error_of_returns (isOk : returns result = true) :
    ¬ ∃ e, result = .error e s := by
  rintro ⟨e, rfl⟩
  cases isOk

/-! ### Loops -/

theorem forM_ite (selected : ι → Prop) [DecidablePred selected] (body : ι → EStateM ε σ PUnit)
    (items : List ι) :
    (forM items fun item => if selected item then body item else pure ⟨⟩) =
      forM (items.filter selected) body := by
  induction items with
  | nil => rfl
  | cons item _ ih =>
    rw [forM_cons, ih]
    by_cases isSelected : selected item
    · simp [isSelected]
    · simp [isSelected]

/-- A program that only reads returns a value, or throws in a state of this kind. -/
def Reads (m : EStateM ε σ α) (s : σ) (a : α) (failed : σ → Prop) : Prop :=
  m.run s = .ok a s ∨ ∃ e s', m.run s = .error e s' ∧ failed s'

variable {failed : σ → Prop}

theorem Reads.bind {m : EStateM ε σ α} {next : α → EStateM ε σ β} {a : α}
    (first : Reads m s a failed) (second : Reads (next a) s b failed) :
    Reads (m >>= next) s b failed := by
  rcases first with ran | ⟨e, s', thrown, isFailed⟩
  · rcases second with rest | ⟨e, s', thrown, isFailed⟩
    · exact .inl (bind_eq_ok.mpr ⟨a, s, ran, rest⟩)
    · exact .inr ⟨e, s', bind_eq_error.mpr (.inr ⟨a, s, ran, thrown⟩), isFailed⟩
  · exact .inr ⟨e, s', bind_eq_error.mpr (.inl thrown), isFailed⟩

theorem Reads.mapM {body : ι → EStateM ε σ β} {read : ι → β}
    (each : ∀ item ∈ items, Reads (body item) s (read item) failed) :
    Reads (items.mapM body) s (items.map read) failed := by
  induction items with
  | nil => exact .inl rfl
  | cons item _ ih =>
    rw [mapM_cons]
    have rest := ih fun next member => each next (mem_cons_of_mem _ member)
    exact (each item mem_cons_self).bind (rest.bind (.inl rfl))

variable {body : ι → EStateM ε σ PUnit}

variable (invariant : σ → Prop)

/-- Loop rule: a property that every iteration keeps holds after the loop. -/
theorem forM_invariant (holds : invariant s) (run : (forM items body).run s = .ok ⟨⟩ s')
    (keeps : ∀ item ∈ items, ∀ t t', invariant t → (body item).run t = .ok ⟨⟩ t' → invariant t') :
    invariant s' := by
  induction items generalizing s with
  | nil =>
    cases run
    exact holds
  | cons item _ ih =>
    rw [forM_cons, bind_eq_ok] at run
    obtain ⟨_, t, first, rest⟩ := run
    exact ih (keeps item (by simp) s t holds first) rest
      fun next member => keeps next (by simp [member])

/-- Loop rule: every iteration of a loop that has ended ran, from a state with the invariant. -/
theorem forM_each (holds : invariant s) (run : (forM items body).run s = .ok ⟨⟩ s')
    (keeps : ∀ item ∈ items, ∀ t t', invariant t → (body item).run t = .ok ⟨⟩ t' → invariant t') :
    ∀ item ∈ items, ∃ t t', invariant t ∧ (body item).run t = .ok ⟨⟩ t' := by
  induction items generalizing s with
  | nil => simp
  | cons item _ ih =>
    rw [forM_cons, bind_eq_ok] at run
    obtain ⟨_, t, first, rest⟩ := run
    exact forall_mem_cons.mpr ⟨⟨s, t, holds, first⟩, ih (keeps item (by simp) s t holds first) rest
      fun other isLater => keeps other (by simp [isLater])⟩

/-- Loop rule for a loop that does not throw: every iteration extends what has been done. -/
theorem forM_runs (invariant : List ι → σ → Prop) (holds : invariant [] s)
    (runs : ∀ done item rest, items = done ++ item :: rest → ∀ t, invariant done t →
      ∃ t', (body item).run t = .ok ⟨⟩ t' ∧ invariant (done ++ [item]) t') :
    ∃ s', (forM items body).run s = .ok ⟨⟩ s' ∧ invariant items s' := by
  -- generalise the part that is done, so that the induction can move along the list
  suffices general : ∀ rest done t, items = done ++ rest → invariant done t →
      ∃ s', (forM rest body).run t = .ok ⟨⟩ s' ∧ invariant items s' from
    general items [] s rfl holds
  intro rest
  induction rest with
  | nil =>
    intro _ t split reached
    rw [append_nil] at split
    rw [split]
    exact ⟨t, rfl, reached⟩
  | cons item rest ih =>
    intro done t split reached
    obtain ⟨t', ran, next⟩ := runs done item rest split t reached
    obtain ⟨s', remaining, final⟩ := ih (done ++ [item]) t'
      (by rw [split, append_assoc, singleton_append]) next
    refine ⟨s', ?_, final⟩
    rw [forM_cons, bind_eq_ok]
    exact ⟨⟨⟩, t', ran, remaining⟩

/-- Loop rule for a loop that passes a value on: what every iteration extends holds of all items. -/
theorem foldlM_invariant {body : α → ι → EStateM ε σ α} (invariant : List ι → α → σ → Prop)
    {a a' : α} (holds : invariant [] a s) (run : (items.foldlM body a).run s = .ok a' s')
    (grows : ∀ done item b t b' t', invariant done b t → (body b item).run t = .ok b' t' →
      invariant (done ++ [item]) b' t') :
    invariant items a' s' := by
  -- generalise the part that is done, so that the induction can move along the list
  suffices general : ∀ rest done b t, invariant done b t → (rest.foldlM body b).run t = .ok a' s' →
      invariant (done ++ rest) a' s' from general items [] a s holds run
  intro rest
  induction rest with
  | nil =>
    intro _ b t _ run
    cases run
    rwa [append_nil]
  | cons item _ ih =>
    intro done b t reached run
    rw [foldlM_cons, bind_eq_ok] at run
    obtain ⟨b', t', first, remaining⟩ := run
    have next := grows done item b t b' t' reached first
    have final := ih (done ++ [item]) b' t' next remaining
    rwa [append_assoc, singleton_append] at final

/-- Loop rule for a loop that passes a value on and throws: some iteration does. -/
theorem foldlM_eq_error {body : α → ι → EStateM ε σ α} (invariant : σ → Prop) (holds : invariant s)
    (run : (items.foldlM body a).run s = .error e s')
    (keeps : ∀ item ∈ items, ∀ b t b' t', invariant t → (body b item).run t = .ok b' t' →
      invariant t') :
    ∃ item ∈ items, ∃ b t, invariant t ∧ (body b item).run t = .error e s' := by
  induction items generalizing a s with
  | nil => cases run
  | cons item _ ih =>
    rw [foldlM_cons, bind_eq_error] at run
    rcases run with failed | ⟨b, t, first, rest⟩
    · exact ⟨item, by simp, a, s, holds, failed⟩
    · obtain ⟨next, member, found⟩ := ih (keeps item (by simp) a s b t holds first) rest
        fun next member => keeps next (by simp [member])
      exact ⟨next, by simp [member], found⟩

theorem forM_flatMap {ι κ : Type} (list : ι → List κ) (body : κ → EStateM ε σ PUnit)
    (items : List ι) :
    forM (items.flatMap list) body = forM items fun item => forM (list item) body := by
  induction items with
  | nil => rfl
  | cons _ _ ih =>
    rw [flatMap_cons, forM_cons, ← ih, forM_append]

/-- Loop rule for a loop that throws: some iteration does, from a state the loop has reached. -/
theorem forM_eq_error (holds : invariant s) (run : (forM items body).run s = .error e s')
    (keeps : ∀ item ∈ items, ∀ t t', invariant t → (body item).run t = .ok ⟨⟩ t' → invariant t') :
    ∃ item ∈ items, ∃ t, invariant t ∧ (body item).run t = .error e s' := by
  induction items generalizing s with
  | nil => cases run
  | cons item _ ih =>
    rw [forM_cons, bind_eq_error] at run
    rcases run with failed | ⟨_, t, first, rest⟩
    · exact ⟨item, by simp, s, holds, failed⟩
    · obtain ⟨next, member, found⟩ := ih (keeps item (by simp) s t holds first)
        rest fun next member => keeps next (by simp [member])
      exact ⟨next, by simp [member], found⟩

/-- Loop rule for a loop over positions: the invariant may speak about how far the loop is. -/
theorem forM_zipIdx_invariant {body : ι × Nat → EStateM ε σ PUnit} (invariant : Nat → σ → Prop)
    (holds : invariant 0 s) (run : (forM items.zipIdx body).run s = .ok ⟨⟩ s')
    (keeps : ∀ i item, items[i]? = some item → ∀ t t', invariant i t →
      (body (item, i)).run t = .ok ⟨⟩ t' → invariant (i + 1) t') :
    invariant items.length s' := by
  -- generalise the first position, so that the induction can move along the list
  suffices general : ∀ (rest : List ι) (start : Nat) (t : σ), invariant start t →
      (forM (rest.zipIdx start) body).run t = .ok ⟨⟩ s' →
      (∀ i item, rest[i]? = some item → items[start + i]? = some item) →
      invariant (start + rest.length) s' by
    simpa using general items 0 s holds run (by simp)
  intro rest
  induction rest with
  | nil =>
    intro _ t holds run _
    cases run
    exact holds
  | cons item rest ih =>
    intro start t holds run located
    rw [zipIdx_cons, forM_cons, bind_eq_ok] at run
    obtain ⟨_, next, first, remaining⟩ := run
    have kept := keeps start item (by simpa using located 0 item rfl) t next holds first
    have done := ih (start + 1) next kept remaining fun i later present => by
      have shifted := located (i + 1) later (by simpa using present)
      rwa [show start + (i + 1) = start + 1 + i by omega] at shifted
    rwa [show start + 1 + rest.length = start + (item :: rest).length by
      rw [length_cons]; omega] at done

/-! ### Failure atomicity -/

/-- If the program throws from `s`, it leaves `s` behind. -/
def Atomic (x : EStateM ε σ α) (s : σ) : Prop :=
  ∀ e s', x.run s = .error e s' → s' = s

/-- The program does not throw from `s`. -/
def NeverFails (x : EStateM ε σ α) (s : σ) : Prop :=
  ∀ e s', x.run s ≠ .error e s'

theorem NeverFails.atomic (never : NeverFails x s) : Atomic x s :=
  fun e s' thrown => absurd thrown (never e s')

theorem neverFails_pure (a : α) (s : σ) : NeverFails (pure a : EStateM ε σ α) s := by
  intro e _ thrown
  cases thrown

theorem neverFails_modify (f : σ → σ) (s : σ) : NeverFails (modify f : EStateM ε σ PUnit) s := by
  intro e _ thrown
  cases thrown

theorem atomic_check (read : σ → Except ε α) (s : σ) : Atomic (check read) s := by
  intro e _ thrown
  cases outcome : read s with
  | ok => simp [run, check, outcome] at thrown
  | error => simp [run, check, outcome] at thrown; exact thrown.2.symm

theorem Atomic.check_bind (rest : ∀ a, read s = .ok a → Atomic (f a) s) :
    Atomic (check read >>= f) s := by
  intro e s' thrown
  rcases bind_eq_error.mp thrown with failed | ⟨a, t, passed, failed⟩
  · exact atomic_check read s e s' failed
  · obtain ⟨value, rfl⟩ := check_eq_ok.mp passed
    exact rest a value e s' failed

theorem Atomic.bind_neverFails (first : Atomic x s)
    (rest : ∀ a t, x.run s = .ok a t → NeverFails (f a) t) :
    Atomic (x >>= f) s := by
  intro e s' thrown
  rcases bind_eq_error.mp thrown with failed | ⟨a, t, passed, failed⟩
  · exact first e s' failed
  · exact absurd failed (rest a t passed e s')

theorem Atomic.discard (atomic : Atomic x s) : Atomic (discard x : EStateM ε σ PUnit) s :=
  atomic.bind_neverFails fun _ t _ => neverFails_pure _ t

theorem NeverFails.check_bind (passes : read s = .ok a) (rest : NeverFails (f a) s) :
    NeverFails (check read >>= f) s := by
  intro e s' thrown
  rcases check_bind_eq_error.mp thrown with ⟨failed, _⟩ | ⟨b, passed, failed⟩
  · rw [passes] at failed
    cases failed
  · cases passes.symm.trans passed
    exact rest e s' failed

theorem NeverFails.modify_bind {f : σ → σ}
    (rest : NeverFails (g ⟨⟩) (f s)) : NeverFails ((modify f : EStateM ε σ PUnit) >>= g) s :=
  rest

theorem NeverFails.get_bind {g : σ → EStateM ε σ β} (rest : NeverFails (g s) s) :
    NeverFails ((get : EStateM ε σ σ) >>= g) s :=
  rest

theorem NeverFails.bind (first : NeverFails x s)
    (rest : ∀ a t, x.run s = .ok a t → NeverFails (f a) t) :
    NeverFails (x >>= f) s := by
  intro e s' thrown
  rcases bind_eq_error.mp thrown with failed | ⟨a, t, passed, failed⟩
  · exact first e s' failed
  · exact rest a t passed e s' failed

theorem NeverFails.forM (holds : invariant s)
    (never : ∀ item ∈ items, ∀ t, invariant t → NeverFails (body item) t)
    (keeps : ∀ item ∈ items, ∀ t t', invariant t → (body item).run t = .ok ⟨⟩ t' → invariant t') :
    NeverFails (forM items body) s := by
  intro e s' thrown
  obtain ⟨item, member, t, reached, failed⟩ := forM_eq_error invariant holds thrown keeps
  exact never item member t reached e s' failed

/-! ### Programs that a map of the state commutes with -/

/-- A run from a mapped state ends as the run from the state itself, with its last state mapped. -/
def Commutes (f : σ → σ) (x : EStateM ε σ α) : Prop :=
  ∀ s, x.run (f s) = match x.run s with
    | .ok a t => .ok a (f t)
    | .error e t => .error e (f t)

section Commutes

variable {f : σ → σ}

theorem Commutes.modify {g : σ → σ} (same : ∀ s, g (f s) = f (g s)) :
    Commutes f (modifyGet fun s => (⟨⟩, g s) : EStateM ε σ PUnit) := by
  intro s
  show EStateM.Result.ok _ (g (f s)) = _
  rw [same]
  rfl

theorem Commutes.check_bind {rest : α → EStateM ε σ β}
    (same : ∀ s, read (f s) = read s) (commutes : ∀ a, Commutes f (rest a)) :
    Commutes f (check read >>= rest) := by
  intro s
  cases outcome : read s with
  | ok a => rw [run_check_bind outcome, run_check_bind ((same s).trans outcome), commutes a s]
  | error =>
    rw [run_bind, run_bind]
    simp [run, check, same, outcome]

theorem Commutes.forM {ι : Type} {body : ι → EStateM ε σ PUnit}
    (each : ∀ item, Commutes f (body item)) (items : List ι) : Commutes f (forM items body) := by
  induction items with
  | nil => exact fun _ => rfl
  | cons item _ ih =>
    intro s
    rw [forM_cons, run_bind, run_bind, each item s]
    cases (body item).run s with
    | ok _ t => exact ih t
    | error => rfl

end Commutes

/-! ### What a program leaves alone -/

structure Keeps {γ : Type} (view : σ → γ) (x : EStateM ε σ α) : Prop where
  ok : ∀ {s s' a}, x.run s = .ok a s' → view s' = view s
  error : ∀ {s s' e}, x.run s = .error e s' → view s' = view s

section Keeps

variable {γ : Type} {view : σ → γ}

theorem Keeps.pure (a : α) : Keeps view (Pure.pure a : EStateM ε σ α) where
  ok run := by
    cases run
    rfl
  error run := by cases run

theorem Keeps.throw (e : ε) : Keeps view (MonadExcept.throw e : EStateM ε σ α) where
  ok run := by cases run
  error run := by
    cases run
    rfl

theorem Keeps.modify {f : σ → σ} (same : ∀ s, view (f s) = view s) :
    Keeps view (modifyGet fun s => (⟨⟩, f s) : EStateM ε σ PUnit) where
  ok run := by
    rw [modify_eq_ok.mp run]
    exact same _
  error run := by cases run

theorem Keeps.check (read : σ → Except ε α) : Keeps view (Guarded.check read) where
  ok run := by rw [(check_eq_ok.mp run).2]
  error run := by rw [atomic_check read _ _ _ run]

theorem Keeps.bind (first : Keeps view x)
    (rest : ∀ a, Keeps view (f a)) : Keeps view (x >>= f) where
  ok run := by
    obtain ⟨a, t, ran, remaining⟩ := bind_eq_ok.mp run
    exact ((rest a).ok remaining).trans (first.ok ran)
  error run := by
    rcases bind_eq_error.mp run with failed | ⟨a, t, ran, remaining⟩
    · exact first.error failed
    · exact ((rest a).error remaining).trans (first.ok ran)

theorem Keeps.get_bind {f : σ → EStateM ε σ α} (rest : ∀ s, Keeps view (f s)) :
    Keeps view (get >>= f) where
  ok {s _ _} run := (rest s).ok run
  error {s _ _} run := (rest s).error run

theorem Keeps.foldlM {ι : Type} {body : α → ι → EStateM ε σ α}
    (each : ∀ a item, Keeps view (body a item)) (items : List ι) (a : α) :
    Keeps view (items.foldlM body a) := by
  induction items generalizing a with
  | nil => exact .pure a
  | cons item _ ih =>
    exact (each a item).bind fun b => ih b

theorem Keeps.forM {ι : Type} {body : ι → EStateM ε σ PUnit}
    (each : ∀ item, Keeps view (body item)) (items : List ι) : Keeps view (forM items body) := by
  induction items with
  | nil => exact .pure PUnit.unit
  | cons item _ ih =>
    rw [forM_cons]
    exact (each item).bind fun _ => ih

end Keeps

/-! ### What holds after a program -/

structure Preserves (property : σ → Prop) (x : EStateM ε σ α) : Prop where
  ok : ∀ {s s' a}, property s → x.run s = .ok a s' → property s'
  error : ∀ {s s' e}, property s → x.run s = .error e s' → property s'

section Preserves

variable {property : σ → Prop}

theorem Preserves.pure (a : α) : Preserves property (Pure.pure a : EStateM ε σ α) where
  ok holds run := by
    cases run
    exact holds
  error _ run := by cases run

theorem Preserves.modify {f : σ → σ} (kept : ∀ s, property s → property (f s)) :
    Preserves property (modifyGet fun s => (⟨⟩, f s) : EStateM ε σ PUnit) where
  ok {s _ _} holds run := by
    rw [modify_eq_ok.mp run]
    exact kept s holds
  error _ run := by cases run

theorem Preserves.bind (first : Preserves property x)
    (rest : ∀ a, Preserves property (f a)) : Preserves property (x >>= f) where
  ok holds run := by
    obtain ⟨a, t, ran, remaining⟩ := bind_eq_ok.mp run
    exact (rest a).ok (first.ok holds ran) remaining
  error holds run := by
    rcases bind_eq_error.mp run with failed | ⟨a, t, ran, remaining⟩
    · exact first.error holds failed
    · exact (rest a).error (first.ok holds ran) remaining

theorem Preserves.forM {ι : Type} {body : ι → EStateM ε σ PUnit}
    (each : ∀ item, Preserves property (body item)) (items : List ι) :
    Preserves property (forM items body) := by
  induction items with
  | nil => exact .pure PUnit.unit
  | cons item _ ih =>
    rw [forM_cons]
    exact (each item).bind fun _ => ih

theorem Preserves.finalState (preserves : Preserves property x) {s : σ}
    (holds : property s) : property (finalState (x.run s)) := by
  cases ran : x.run s with
  | ok => exact preserves.ok holds ran
  | error => exact preserves.error holds ran

end Preserves

theorem foldl_makes {α β : Type} {f : β → α → β} {P : β → Prop} {Q : α → Prop} {items : List α}
    (keeps : ∀ b, ∀ item ∈ items, P b → P (f b item)) (made : ∀ b item, Q item → P (f b item))
    {b : β} (given : (∃ item ∈ items, Q item) ∨ P b) : P (items.foldl f b) := by
  induction items generalizing b with
  | nil => exact given.resolve_left (by simp)
  | cons item _ ih =>
    apply ih fun b other later => keeps b other (mem_cons_of_mem _ later)
    rcases given with ⟨other, listed, isMaker⟩ | already
    · rcases mem_cons.mp listed with rfl | later
      · exact .inr (made b other isMaker)
      · exact .inl ⟨other, later, isMaker⟩
    · exact .inr (keeps b item mem_cons_self already)

end Guarded
