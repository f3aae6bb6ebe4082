import Mathlib.Tactic.Common

/-!
# Effects with state and exceptions

Rules of pre- and postconditions for `EStateM ε σ`, whose state survives an
exception.  Assertions speak of what a function `view` shows of the state.

* `Silent view m`: `m` changes nothing that `view` shows.
* `Along view Rel m`: `m` changes what `view` shows only along `Rel`.
* `Ensures view m r Q E`: from any state that shows `r`, `m` returns with `Q` or
  raises with `E`.
* `Raises A m`: what `m` raises, if anything, is in `A`.
-/

namespace Effect

variable {ε σ ρ α β : Type} {view : σ → ρ}

/-- A computation that does not touch the state. -/
def lift (x : Except ε α) : EStateM ε σ α :=
  match x with
  | .ok a => pure a
  | .error e => throw e

/-- Run `m` on the part of the state that `get` and `set` give access to. -/
def zoom {τ : Type} (get : σ → τ) (set : τ → σ → σ) (m : EStateM ε τ α) : EStateM ε σ α :=
  fun s => match m (get s) with
    | .ok a t => .ok a (set t s)
    | .error e t => .error e (set t s)

/-- The state `m` leaves, whether it returns or raises. -/
def final (m : EStateM ε σ α) (s : σ) : σ :=
  match m s with
  | .ok _ s' => s'
  | .error _ s' => s'

section

variable {τ : Type} {get : σ → τ} {set : τ → σ → σ} (read : ∀ t s, get (set t s) = t)
  (write : ∀ t t' s, set t' (set t s) = set t' s)

include read write

theorem zoom_bind (m : EStateM ε τ α) (f : α → EStateM ε τ β) :
    zoom get set (m >>= f) = zoom get set m >>= fun a => zoom get set (f a) := by
  funext s
  change (match EStateM.bind m f (get s) with
    | .ok a t => EStateM.Result.ok a (set t s)
    | .error e t => .error e (set t s)) =
    EStateM.bind (zoom get set m) (fun a => zoom get set (f a)) s
  unfold EStateM.bind zoom
  cases m (get s) with
  | ok a t =>
    dsimp only
    rw [read]
    cases f a t with
    | ok b t' => exact congrArg _ (write t t' s).symm
    | error e t' => exact congrArg _ (write t t' s).symm
  | error e t => rfl

theorem zoom_tryCatch (m : EStateM ε τ α) (handler : ε → EStateM ε τ α) :
    zoom get set (tryCatch m handler) =
      tryCatch (zoom get set m) fun e => zoom get set (handler e) := by
  funext s
  change (match EStateM.tryCatch m handler (get s) with
    | .ok a t => EStateM.Result.ok a (set t s)
    | .error e t => .error e (set t s)) =
    EStateM.tryCatch (zoom get set m) (fun e => zoom get set (handler e)) s
  unfold EStateM.tryCatch zoom
  cases m (get s) with
  | ok a t => rfl
  | error e t =>
    change (match handler e t with
      | .ok a t' => EStateM.Result.ok a (set t' s)
      | .error e t' => .error e (set t' s)) =
      match handler e (get (set t s)) with
      | .ok a t' => .ok a (set t' (set t s))
      | .error e t' => .error e (set t' (set t s))
    rw [read]
    cases handler e t with
    | ok a t' => exact congrArg _ (write t t' s).symm
    | error e t' => exact congrArg _ (write t t' s).symm

end

/-- The state a sequence leaves, by the ending of its first effect. -/
theorem final_bind {m : EStateM ε σ α} {f : α → EStateM ε σ β} {s : σ} {I : σ → Prop}
    (raised : ∀ e s', m s = .error e s' → I s')
    (returned : ∀ a s', m s = .ok a s' → I (final (f a) s')) : I (final (m >>= f) s) := by
  change I (match EStateM.bind m f s with | .ok _ s' => s' | .error _ s' => s')
  unfold EStateM.bind
  cases outcome : m s with
  | ok a s' => exact returned a s' outcome
  | error e s' => exact raised e s' outcome

theorem bind_ok {m : EStateM ε σ α} {f : α → EStateM ε σ β} {s s' : σ} {b : β}
    (returned : (m >>= f) s = .ok b s') : ∃ a s₁, m s = .ok a s₁ ∧ f a s₁ = .ok b s' := by
  change EStateM.bind m f s = .ok b s' at returned
  unfold EStateM.bind at returned
  cases outcome : m s with
  | ok a s₁ =>
    rw [outcome] at returned
    exact ⟨a, s₁, rfl, returned⟩
  | error e s₁ =>
    rw [outcome] at returned
    cases returned

/-! ## Silent computations -/

def Silent (view : σ → ρ) (m : EStateM ε σ α) : Prop := ∀ s, view (final m s) = view s

namespace Silent

theorem pure (a : α) : Silent view (pure a : EStateM ε σ α) := fun _ => rfl

theorem throw (e : ε) : Silent view (throw e : EStateM ε σ α) := fun _ => rfl

theorem get : Silent view (get : EStateM ε σ σ) := fun _ => rfl

theorem lift (x : Except ε α) : Silent view (lift x : EStateM ε σ α) := by
  cases x with
  | ok a => exact pure a
  | error e => exact throw e

theorem modify {f : σ → σ} (same : ∀ s, view (f s) = view s) :
    Silent view (modify f : EStateM ε σ PUnit) := same

theorem zoom {τ : Type} {get : σ → τ} {set : τ → σ → σ}
    (same : ∀ t s, view (set t s) = view s) (m : EStateM ε τ α) :
    Silent view (zoom get set m) := by
  intro s
  unfold final Effect.zoom
  cases m (get s) with
  | ok a t => exact same t s
  | error e t => exact same t s

theorem bind {m : EStateM ε σ α} {f : α → EStateM ε σ β} (first : Silent view m)
    (rest : ∀ a, Silent view (f a)) : Silent view (m >>= f) := by
  intro s
  have before := first s
  unfold final at before ⊢
  change view (match EStateM.bind m f s with | .ok _ s' => s' | .error _ s' => s') = view s
  unfold EStateM.bind
  cases outcome : m s with
  | ok a s' =>
    rw [outcome] at before
    exact (rest a s').trans before
  | error e s' =>
    rw [outcome] at before
    exact before

theorem lift_bind {x : Except ε α} {f : α → EStateM ε σ β}
    (rest : ∀ a, x = .ok a → Silent view (f a)) : Silent view (Effect.lift x >>= f) := by
  cases x with
  | ok a => exact rest a rfl
  | error e => exact throw e

theorem ite {c : Prop} [Decidable c] {m m' : EStateM ε σ α} (yes : Silent view m)
    (no : Silent view m') : Silent view (if c then m else m') := by
  split
  · exact yes
  · exact no

theorem tryCatch {m : EStateM ε σ α} {handler : ε → EStateM ε σ α} (body : Silent view m)
    (caught : ∀ e, Silent view (handler e)) : Silent view (tryCatch m handler) := by
  intro s
  have before := body s
  unfold final at before ⊢
  change view (match EStateM.tryCatch m handler s with | .ok _ s' => s' | .error _ s' => s') = view s
  unfold EStateM.tryCatch
  cases outcome : m s with
  | ok a s' =>
    rw [outcome] at before
    exact before
  | error e s' =>
    rw [outcome] at before
    exact (caught e s').trans before

end Silent

/-! ## Moving along a preorder -/

def Along (view : σ → ρ) (Rel : ρ → ρ → Prop) (m : EStateM ε σ α) : Prop :=
  ∀ s, Rel (view s) (view (final m s))

namespace Along

variable {Rel : ρ → ρ → Prop} (refl : ∀ r, Rel r r)

include refl

theorem silent {m : EStateM ε σ α} (quiet : Silent view m) : Along view Rel m := by
  intro s
  rw [quiet s]
  exact refl _

theorem pure (a : α) : Along view Rel (pure a : EStateM ε σ α) := fun _ => refl _

theorem lift (x : Except ε α) : Along view Rel (lift x : EStateM ε σ α) :=
  silent refl (Silent.lift x)

omit refl in
theorem modify {f : σ → σ} (moves : ∀ s, Rel (view s) (view (f s))) :
    Along view Rel (modify f : EStateM ε σ PUnit) := moves

omit refl in
theorem bind (trans : ∀ r₁ r₂ r₃, Rel r₁ r₂ → Rel r₂ r₃ → Rel r₁ r₃) {m : EStateM ε σ α}
    {f : α → EStateM ε σ β} (first : Along view Rel m) (rest : ∀ a, Along view Rel (f a)) :
    Along view Rel (m >>= f) := by
  intro s
  have before := first s
  refine final_bind (I := fun s' => Rel (view s) (view s')) (fun e s' outcome => ?_)
    fun a s' outcome => ?_
  · unfold final at before
    rw [outcome] at before
    exact before
  · unfold final at before
    rw [outcome] at before
    exact trans _ _ _ before (rest a s')

omit refl in
theorem ite {c : Prop} [Decidable c] {m m' : EStateM ε σ α} (yes : Along view Rel m)
    (no : Along view Rel m') : Along view Rel (if c then m else m') := by
  split
  · exact yes
  · exact no

end Along

/-! ## Postconditions -/

/-- From any state that shows `r`, `m` returns with `Q` or raises with `E`. -/
def Ensures (view : σ → ρ) (m : EStateM ε σ α) (r : ρ) (Q : α → ρ → Prop)
    (E : ρ → Prop) : Prop :=
  ∀ s, view s = r → match m s with
    | .ok a s' => Q a (view s')
    | .error _ s' => E (view s')

namespace Ensures

variable {m : EStateM ε σ α} {f : α → EStateM ε σ β} {r : ρ} {Q R : α → ρ → Prop}
  {S : β → ρ → Prop} {E F : ρ → Prop}

theorem pure {a : α} (post : Q a r) : Ensures view (pure a : EStateM ε σ α) r Q E := by
  intro s shows
  cases shows
  exact post

theorem throw {e : ε} (post : E r) : Ensures view (throw e : EStateM ε σ α) r Q E := by
  intro s shows
  cases shows
  exact post

theorem update {f : σ → σ} {Q : PUnit → ρ → Prop} {g : ρ → ρ}
    (moves : ∀ s, view (f s) = g (view s)) (post : Q ⟨⟩ (g r)) :
    Ensures view (modify f : EStateM ε σ PUnit) r Q E := by
  intro s shows
  cases shows
  change Q ⟨⟩ (view (f s))
  rw [moves]
  exact post

theorem mono (sat : Ensures view m r R F) (value : ∀ a r', R a r' → Q a r')
    (raised : ∀ r', F r' → E r') : Ensures view m r Q E := by
  intro s shows
  have given := sat s shows
  cases outcome : m s with
  | ok a s' =>
    rw [outcome] at given
    exact value a _ given
  | error e s' =>
    rw [outcome] at given
    exact raised _ given

/-- **Sequencing.**  What the first effect ensures is what the second starts from. -/
theorem bind (first : Ensures view m r R E) (rest : ∀ a r', R a r' → Ensures view (f a) r' S E) :
    Ensures view (m >>= f) r S E := by
  intro s shows
  have given := first s shows
  change match EStateM.bind m f s with
    | .ok a s' => S a (view s')
    | .error _ s' => E (view s')
  unfold EStateM.bind
  cases outcome : m s with
  | ok a s' =>
    rw [outcome] at given
    exact rest a _ given s' rfl
  | error e s' =>
    rw [outcome] at given
    exact given

theorem silent (quiet : Silent view m) (value : ∀ a, Q a r) (raised : E r) :
    Ensures view m r Q E := by
  intro s shows
  have same := quiet s
  unfold final at same
  cases outcome : m s with
  | ok a s' =>
    rw [outcome] at same
    change Q a (view s')
    rw [same.trans shows]
    exact value a
  | error e s' =>
    rw [outcome] at same
    change E (view s')
    rw [same.trans shows]
    exact raised

theorem silent_bind (quiet : Silent view m) (raised : E r)
    (rest : ∀ a, Ensures view (f a) r S E) : Ensures view (m >>= f) r S E :=
  bind (R := fun _ r' => r' = r) (silent quiet (fun _ => rfl) raised)
    fun a _ same => same ▸ rest a

theorem lift_bind {x : Except ε α} (raised : E r)
    (rest : ∀ a, x = .ok a → Ensures view (f a) r S E) : Ensures view (lift x >>= f) r S E := by
  cases x with
  | ok a => exact rest a rfl
  | error e => exact bind (throw raised) fun a _ (impossible : False) => impossible.elim

theorem value_bind {x : Except ε α} {a : α} (value : x = .ok a)
    (rest : Ensures view (f a) r S E) : Ensures view (lift x >>= f) r S E := by
  subst value
  exact rest

/-- Reading the state gives one that shows `r`. -/
theorem get_bind {f : σ → EStateM ε σ β} (rest : ∀ s, view s = r → Ensures view (f s) r S E) :
    Ensures view (get >>= f) r S E :=
  fun s shows => rest s shows s shows

theorem update_bind {f : σ → σ} {h : PUnit → EStateM ε σ β} {g : ρ → ρ}
    (moves : ∀ s, view (f s) = g (view s)) (rest : Ensures view (h ⟨⟩) (g r) S E) :
    Ensures view ((modify f : EStateM ε σ PUnit) >>= h) r S E :=
  bind (R := fun _ r' => r' = g r) (update moves rfl) fun _ _ same => same ▸ rest

theorem tryCatch {handler : ε → EStateM ε σ α} (body : Ensures view m r Q F)
    (caught : ∀ e r', F r' → Ensures view (handler e) r' Q E) :
    Ensures view (tryCatch m handler) r Q E := by
  intro s shows
  have given := body s shows
  change match EStateM.tryCatch m handler s with
    | .ok a s' => Q a (view s')
    | .error _ s' => E (view s')
  unfold EStateM.tryCatch
  cases outcome : m s with
  | ok a s' =>
    rw [outcome] at given
    exact given
  | error e s' =>
    rw [outcome] at given
    exact caught e _ given s' rfl

theorem ite {c : Prop} [Decidable c] {m' : EStateM ε σ α} (yes : c → Ensures view m r Q E)
    (no : ¬ c → Ensures view m' r Q E) : Ensures view (if c then m else m') r Q E := by
  split
  · next holds => exact yes holds
  · next fails => exact no fails

theorem returned (sat : Ensures view m r Q E) {s s' : σ} {a : α} (shows : view s = r)
    (outcome : m s = .ok a s') : Q a (view s') := by
  have given := sat s shows
  rw [outcome] at given
  exact given

theorem anything : Ensures view m r (fun _ _ => True) fun _ => True := by
  intro s _
  cases m s <;> trivial

theorem along {Rel : ρ → ρ → Prop} (moves : Along view Rel m) :
    Ensures view m r (fun _ => Rel r) (Rel r) := by
  intro s shows
  have moved := moves s
  rw [shows] at moved
  unfold Effect.final at moved
  cases outcome : m s with
  | ok a s' =>
    rw [outcome] at moved
    exact moved
  | error e s' =>
    rw [outcome] at moved
    exact moved

/-- What `m` returns on a part of the state that is not shown. -/
theorem zoom {τ : Type} {get : σ → τ} {set : τ → σ → σ}
    (hidden : ∀ t s, view (set t s) = view s) {m : EStateM ε τ α} {A : α → Prop}
    (sat : Ensures (fun _ => ()) m () (fun a _ => A a) fun _ => True)
    (value : ∀ a, A a → Q a r) (raised : E r) : Ensures view (zoom get set m) r Q E := by
  intro s shows
  have given := sat (get s) rfl
  unfold Effect.zoom
  cases outcome : m (get s) with
  | ok a t =>
    rw [outcome] at given
    change Q a (view (set t s))
    rw [hidden, shows]
    exact value a given
  | error e t =>
    change E (view (set t s))
    rw [hidden, shows]
    exact raised

/-- A coarser view of the state. -/
theorem coarsen {τ : Type} (g : ρ → τ) {t : τ} {R : α → τ → Prop} {F : τ → Prop}
    (fine : ∀ r, g r = t → Ensures view m r (fun a r' => R a (g r')) fun r' => F (g r')) :
    Ensures (fun s => g (view s)) m t R F :=
  fun s shows => fine (view s) shows s rfl

/-- What both endings have in common holds of the state that is left. -/
theorem final {I : ρ → Prop} (sat : Ensures view m r (fun _ => I) I) {s : σ}
    (shows : view s = r) : I (view (final m s)) := by
  have given := sat s shows
  unfold Effect.final
  cases outcome : m s with
  | ok a s' =>
    rw [outcome] at given
    exact given
  | error e s' =>
    rw [outcome] at given
    exact given

end Ensures

/-! ## What can be raised -/

def Raises (A : ε → Prop) (m : EStateM ε σ α) : Prop := ∀ s e s', m s = .error e s' → A e

namespace Raises

variable {A B : ε → Prop} {m : EStateM ε σ α}

theorem pure (a : α) : Raises A (pure a : EStateM ε σ α) := by
  intro s e s' raised
  cases raised

theorem throw {e : ε} (allowed : A e) : Raises A (throw e : EStateM ε σ α) := by
  intro s e' s' raised
  cases raised
  exact allowed

theorem modify (f : σ → σ) : Raises A (modify f : EStateM ε σ PUnit) := by
  intro s e s' raised
  cases raised

theorem mono (raises : Raises A m) (weaken : ∀ e, A e → B e) : Raises B m :=
  fun s e s' raised => weaken e (raises s e s' raised)

theorem bind {f : α → EStateM ε σ β} (first : Raises A m) (rest : ∀ a, Raises A (f a)) :
    Raises A (m >>= f) := by
  intro s e s' raised
  change EStateM.bind m f s = .error e s' at raised
  unfold EStateM.bind at raised
  cases outcome : m s with
  | ok a s₁ =>
    rw [outcome] at raised
    exact rest a s₁ e s' raised
  | error e₁ s₁ =>
    rw [outcome] at raised
    cases raised
    exact first s e s' outcome

theorem ite {c : Prop} [Decidable c] {m' : EStateM ε σ α} (yes : c → Raises A m)
    (no : ¬ c → Raises A m') : Raises A (if c then m else m') := by
  split
  · next holds => exact yes holds
  · next fails => exact no fails

/-- A handler that is only called on what the body raises. -/
theorem tryCatch {handler : ε → EStateM ε σ α} (body : Raises A m)
    (caught : ∀ e, A e → Raises B (handler e)) : Raises B (tryCatch m handler) := by
  intro s e s' raised
  change EStateM.tryCatch m handler s = .error e s' at raised
  unfold EStateM.tryCatch at raised
  cases outcome : m s with
  | ok a s₁ =>
    rw [outcome] at raised
    cases raised
  | error e₁ s₁ =>
    rw [outcome] at raised
    exact caught e₁ (body s e₁ s₁ outcome) _ e s' raised

theorem zoom {τ : Type} {get : σ → τ} {set : τ → σ → σ} {m : EStateM ε τ α}
    (raises : Raises A m) : Raises A (zoom get set m) := by
  intro s e s' raised
  unfold Effect.zoom at raised
  cases outcome : m (get s) with
  | ok a t =>
    rw [outcome] at raised
    cases raised
  | error e₁ t =>
    rw [outcome] at raised
    cases raised
    exact raises _ _ _ outcome

/-- What raises nothing returns. -/
theorem returns (raises : Raises (fun _ => False) m) (s : σ) : ∃ a s', m s = .ok a s' := by
  cases outcome : m s with
  | ok a s' => exact ⟨a, s', rfl⟩
  | error e s' => exact (raises s e s' outcome).elim

end Raises

end Effect
