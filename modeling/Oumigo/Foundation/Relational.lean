import Oumigo.Foundation.Effect

/-!
# Two runs side by side

Rules for two computations of `EStateM ε σ` that end the same way from related states.

* `Agree R V m m'`: from states in `R`, `m` and `m'` both return values in `V`, or both
  raise the same exception, and leave states in `R`.
* `Steady R m`: `m` agrees with itself; what it does depends only on what `R` keeps.
* `Tightens S R V m m'`: from states in `S`, `m` and `m'` return in the narrower `R`.
-/

namespace Effect

variable {ε σ α α' β β' : Type} {R : σ → σ → Prop}

/-- Two results that are one ending. -/
def SameEnd (R : σ → σ → Prop) (V : α → α' → Prop) :
    EStateM.Result ε σ α → EStateM.Result ε σ α' → Prop
  | .ok a s, .ok a' s' => V a a' ∧ R s s'
  | .error e s, .error e' s' => e = e' ∧ R s s'
  | _, _ => False

theorem SameEnd.mono {S : σ → σ → Prop} {V : α → α' → Prop} {x : EStateM.Result ε σ α}
    {x' : EStateM.Result ε σ α'} (ends : SameEnd R V x x')
    (weaken : ∀ s s', R s s' → S s s') : SameEnd S V x x' := by
  cases x <;> cases x'
  · exact ⟨ends.1, weaken _ _ ends.2⟩
  · exact ends
  · exact ends
  · exact ⟨ends.1, weaken _ _ ends.2⟩

def Agree (R : σ → σ → Prop) (V : α → α' → Prop) (m : EStateM ε σ α) (m' : EStateM ε σ α') :
    Prop :=
  ∀ s s', R s s' → SameEnd R V (m s) (m' s')

namespace Agree

variable {V U : α → α' → Prop} {T : β → β' → Prop} {m : EStateM ε σ α} {m' : EStateM ε σ α'}
  {f : α → EStateM ε σ β} {f' : α' → EStateM ε σ β'}

theorem pure {a : α} {a' : α'} (value : V a a') :
    Agree R V (pure a : EStateM ε σ α) (pure a') := fun _ _ related => ⟨value, related⟩

theorem throw (e : ε) : Agree R V (throw e : EStateM ε σ α) (throw e) :=
  fun _ _ related => ⟨rfl, related⟩

theorem mono (agree : Agree R U m m') (weaken : ∀ a a', U a a' → V a a') : Agree R V m m' := by
  intro s s' related
  have ends := agree s s' related
  cases outcome : m s <;> cases outcome' : m' s' <;> rw [outcome, outcome'] at ends
  · exact ⟨weaken _ _ ends.1, ends.2⟩
  · exact ends
  · exact ends
  · exact ends

/-- **Sequencing.**  The second effects start from values and states that are related. -/
theorem bind (first : Agree R V m m') (rest : ∀ a a', V a a' → Agree R T (f a) (f' a')) :
    Agree R T (m >>= f) (m' >>= f') := by
  intro s s' related
  have ends := first s s' related
  change SameEnd R T (EStateM.bind m f s) (EStateM.bind m' f' s')
  unfold EStateM.bind
  cases outcome : m s <;> cases outcome' : m' s' <;> rw [outcome, outcome'] at ends
  · exact rest _ _ ends.1 _ _ ends.2
  · exact ends.elim
  · exact ends.elim
  · exact ends

theorem get_bind {f : σ → EStateM ε σ β} {f' : σ → EStateM ε σ β'}
    (rest : ∀ s s', R s s' → Agree R T (f s) (f' s')) : Agree R T (get >>= f) (get >>= f') :=
  fun s s' related => rest s s' related s s' related

theorem modify {g : σ → σ} {V : PUnit → PUnit → Prop} (value : V ⟨⟩ ⟨⟩)
    (moves : ∀ s s', R s s' → R (g s) (g s')) :
    Agree R V (modify g : EStateM ε σ PUnit) (modify g) :=
  fun s s' related => ⟨value, moves s s' related⟩

theorem ite {c : Prop} [Decidable c] {n : EStateM ε σ α} {n' : EStateM ε σ α'}
    (yes : c → Agree R V m m') (no : ¬ c → Agree R V n n') :
    Agree R V (if c then m else n) (if c then m' else n') := by
  split
  · next holds => exact yes holds
  · next fails => exact no fails

theorem tryCatch {handler : ε → EStateM ε σ α} {handler' : ε → EStateM ε σ α'}
    (body : Agree R V m m') (caught : ∀ e, Agree R V (handler e) (handler' e)) :
    Agree R V (tryCatch m handler) (tryCatch m' handler') := by
  intro s s' related
  have ends := body s s' related
  change SameEnd R V (EStateM.tryCatch m handler s) (EStateM.tryCatch m' handler' s')
  unfold EStateM.tryCatch
  cases outcome : m s <;> cases outcome' : m' s' <;> rw [outcome, outcome'] at ends
  · exact ends
  · exact ends.elim
  · exact ends.elim
  · obtain ⟨rfl, related⟩ := ends
    exact caught _ _ _ related

end Agree

/-! ## Computations that agree with themselves -/

def Steady (R : σ → σ → Prop) (m : EStateM ε σ α) : Prop := Agree R Eq m m

namespace Steady

variable {m : EStateM ε σ α} {f : α → EStateM ε σ β}

theorem pure (a : α) : Steady R (pure a : EStateM ε σ α) := Agree.pure rfl

theorem throw (e : ε) : Steady R (throw e : EStateM ε σ α) := Agree.throw e

theorem bind (first : Steady R m) (rest : ∀ a, Steady R (f a)) : Steady R (m >>= f) := by
  refine Agree.bind first ?_
  rintro a _ rfl
  exact rest a

theorem lift (x : Except ε α) : Steady R (lift x : EStateM ε σ α) := by
  cases x with
  | ok a => exact pure a
  | error e => exact throw e

theorem lift_bind {x : Except ε α} (rest : ∀ a, x = .ok a → Steady R (f a)) :
    Steady R (Effect.lift x >>= f) := by
  cases x with
  | ok a => exact rest a rfl
  | error e => exact throw e

theorem modify {g : σ → σ} (moves : ∀ s s', R s s' → R (g s) (g s')) :
    Steady R (modify g : EStateM ε σ PUnit) := Agree.modify rfl moves

theorem ite {c : Prop} [Decidable c] {n : EStateM ε σ α} (yes : Steady R m) (no : Steady R n) :
    Steady R (if c then m else n) :=
  Agree.ite (fun _ => yes) fun _ => no

theorem tryCatch {handler : ε → EStateM ε σ α} (body : Steady R m)
    (caught : ∀ e, Steady R (handler e)) : Steady R (tryCatch m handler) :=
  Agree.tryCatch body caught

/-- A part of the state that `R` keeps. -/
theorem zoom {τ : Type} {get : σ → τ} {set : τ → σ → σ}
    (same : ∀ s s', R s s' → get s = get s')
    (moves : ∀ t s s', R s s' → R (set t s) (set t s')) (m : EStateM ε τ α) :
    Steady R (zoom get set m) := by
  intro s s' related
  unfold Effect.zoom
  rw [same s s' related]
  cases m (get s') with
  | ok a t => exact ⟨rfl, moves t s s' related⟩
  | error e t => exact ⟨rfl, moves t s s' related⟩

end Steady

/-! ## Towards a narrower relation -/

/-- From states in `S`, both return in `R`, or both raise the same exception in `S`. -/
def Tightens (S R : σ → σ → Prop) (V : α → α' → Prop) (m : EStateM ε σ α)
    (m' : EStateM ε σ α') : Prop :=
  ∀ s s', S s s' → match m s, m' s' with
    | .ok a t, .ok a' t' => V a a' ∧ R t t'
    | .error e t, .error e' t' => e = e' ∧ S t t'
    | _, _ => False

theorem Tightens.modify {S : σ → σ → Prop} {g : σ → σ} (moves : ∀ s s', S s s' → R (g s) (g s')) :
    Tightens S R Eq (modify g : EStateM ε σ PUnit) (modify g) :=
  fun s s' related => ⟨rfl, moves s s' related⟩

/-- Before the tightening, the wider relation is all that is kept. -/
theorem Agree.tightens {S : σ → σ → Prop} {V : α → α' → Prop} {T : β → β' → Prop}
    {m : EStateM ε σ α} {m' : EStateM ε σ α'} {f : α → EStateM ε σ β} {f' : α' → EStateM ε σ β'}
    (first : Agree S V m m') (rest : ∀ a a', V a a' → Tightens S R T (f a) (f' a')) :
    Tightens S R T (m >>= f) (m' >>= f') := by
  intro s s' related
  have ends := first s s' related
  change match EStateM.bind m f s, EStateM.bind m' f' s' with
    | .ok b t, .ok b' t' => T b b' ∧ R t t'
    | .error e t, .error e' t' => e = e' ∧ S t t'
    | _, _ => False
  unfold EStateM.bind
  cases outcome : m s <;> cases outcome' : m' s' <;> rw [outcome, outcome'] at ends
  · exact rest _ _ ends.1 _ _ ends.2
  · exact ends.elim
  · exact ends.elim
  · exact ends

/-- What comes after the tightening may rely on the narrower relation. -/
theorem Tightens.bind {S : σ → σ → Prop} {V : α → α' → Prop} {T : β → β' → Prop}
    {m : EStateM ε σ α} {m' : EStateM ε σ α'} {f : α → EStateM ε σ β} {f' : α' → EStateM ε σ β'}
    (first : Tightens S R V m m') (wider : ∀ s s', R s s' → S s s')
    (rest : ∀ a a', V a a' → Agree R T (f a) (f' a')) : Agree S T (m >>= f) (m' >>= f') := by
  intro s s' related
  have ends := first s s' related
  change SameEnd S T (EStateM.bind m f s) (EStateM.bind m' f' s')
  unfold EStateM.bind
  cases outcome : m s <;> cases outcome' : m' s' <;> rw [outcome, outcome'] at ends
  · exact (rest _ _ ends.1 _ _ ends.2).mono wider
  · exact ends.elim
  · exact ends.elim
  · exact ends

/-! ## Through a view -/

section

variable {ρ : Type} {view : σ → ρ} {K : ρ → Prop}

/-- The states show the same, which satisfies `K`. -/
def Alike (view : σ → ρ) (K : ρ → Prop) (s s' : σ) : Prop := view s = view s' ∧ K (view s)

theorem Alike.step {f : σ → σ} {g : ρ → ρ} (moves : ∀ s, view (f s) = g (view s))
    (keeps : ∀ r, K r → K (g r)) (s s' : σ) (alike : Alike view K s s') :
    Alike view K (f s) (f s') := by
  unfold Alike
  rw [moves, moves, ← alike.1]
  exact ⟨rfl, keeps _ alike.2⟩

/-- Two effects with one postcondition agree. -/
theorem Agree.of_ensures {m : EStateM ε σ α} {m' : EStateM ε σ α'} {A : α → Prop} {A' : α' → Prop}
    {V : α → α' → Prop} {g : ρ → ρ}
    (left : ∀ r, Ensures view m r (fun a r' => A a ∧ r' = g r) fun _ => False)
    (right : ∀ r, Ensures view m' r (fun a r' => A' a ∧ r' = g r) fun _ => False)
    (keeps : ∀ r, K r → K (g r)) (values : ∀ a a', A a → A' a' → V a a') :
    Agree (Alike view K) V m m' := by
  intro s s' alike
  have first := left _ s alike.1
  have second := right _ s' rfl
  cases outcome : m s <;> cases outcome' : m' s' <;> rw [outcome] at first <;>
    rw [outcome'] at second
  · refine ⟨values _ _ first.1 second.1, first.2.trans second.2.symm, ?_⟩
    rw [first.2, ← alike.1]
    exact keeps _ alike.2
  · exact second.elim
  · exact first.elim
  · exact first.elim

theorem Steady.of_ensures {m : EStateM ε σ α} {a : α} {g : ρ → ρ}
    (sat : ∀ r, Ensures view m r (fun b r' => b = a ∧ r' = g r) fun _ => False)
    (keeps : ∀ r, K r → K (g r)) : Steady (Alike view K) m :=
  Agree.of_ensures sat sat keeps fun _ _ left right => left.trans right.symm

end

end Effect
