import Mathlib.Init

/-!
# Pre- and postconditions for programs with state and errors

`EStateM ε σ` keeps the state a computation has reached when it throws, so a
triple has two postconditions: one for the result and one for the error.  The
rules follow the constructors of the monad; a loop is proved by induction on the
data it runs over, with `Triple.bind` for its body.

`Leaves x R` is the common case of a frame condition: however `x` ends, the state
before and the state after are related by `R`.  For a preorder it composes.

`Raises x E` is the case in which only the error is looked at.
-/

/-- `x` started in a state that satisfies `P` ends with a result that satisfies
    `Q`, or with an error that satisfies `E`. -/
def Triple {ε σ α : Type} (P : σ → Prop) (x : EStateM ε σ α) (Q : α → σ → Prop)
    (E : ε → σ → Prop) : Prop :=
  ∀ s, P s → match x s with
    | .ok a s' => Q a s'
    | .error err s' => E err s'

namespace Triple

variable {ε σ α β : Type} {P P' : σ → Prop} {Q Q' : α → σ → Prop} {E E' : ε → σ → Prop}

theorem ret {a : α} (h : ∀ s, P s → Q a s) : Triple P (pure a : EStateM ε σ α) Q E := h

theorem raise {err : ε} (h : ∀ s, P s → E err s) :
    Triple P (throw err : EStateM ε σ α) Q E := h

theorem bind {x : EStateM ε σ α} {f : α → EStateM ε σ β} {R : β → σ → Prop}
    (hx : Triple P x Q E) (hf : ∀ a, Triple (Q a) (f a) R E) : Triple P (x >>= f) R E := by
  intro s hs
  have hxs := hx s hs
  show match EStateM.bind x f s with | .ok b s' => R b s' | .error err s' => E err s'
  unfold EStateM.bind
  cases hrun : x s with
  | ok a s' =>
    rw [hrun] at hxs
    exact hf a s' hxs
  | error err s' =>
    rw [hrun] at hxs
    exact hxs

theorem read {Q : σ → σ → Prop} (h : ∀ s, P s → Q s s) :
    Triple P (get : EStateM ε σ σ) Q E := h

theorem write {f : σ → σ} {Q : Unit → σ → Prop} (h : ∀ s, P s → Q () (f s)) :
    Triple P (modify f : EStateM ε σ Unit) Q E := h

/-- The state is looked at and replaced. -/
theorem replace {f : σ → σ} {k : σ → EStateM ε σ α} {s : σ}
    (h : Triple (· = f s) (k s) Q E) :
    Triple (· = s) (do let t ← get; set (f t); k t) Q E := by
  intro s₀ hs
  obtain rfl : s₀ = s := hs
  exact h (f s₀) rfl

theorem conseq {x : EStateM ε σ α} (h : Triple P x Q E) (hP : ∀ s, P' s → P s)
    (hQ : ∀ a s, Q a s → Q' a s) (hE : ∀ err s, E err s → E' err s) : Triple P' x Q' E' := by
  intro s hs
  have hxs := h s (hP s hs)
  cases hrun : x s with
  | ok a s' =>
    rw [hrun] at hxs
    exact hQ a s' hxs
  | error err s' =>
    rw [hrun] at hxs
    exact hE err s' hxs

/-- A precondition may be split into its states. -/
theorem of_state {x : EStateM ε σ α} (h : ∀ s, P s → Triple (· = s) x Q E) : Triple P x Q E :=
  fun s hs => h s hs s rfl

/-- What a precondition says without looking at the state. -/
theorem of_fact {x : EStateM ε σ α} {φ : Prop} (h : φ → Triple P x Q E) :
    Triple (fun s => P s ∧ φ) x Q E := fun s hs => h hs.2 s hs.1

theorem ok {x : EStateM ε σ α} (h : Triple P x Q E) {s s' : σ} {a : α} (hs : P s)
    (hrun : x s = .ok a s') : Q a s' := by
  have hxs := h s hs
  rwa [hrun] at hxs

theorem error {x : EStateM ε σ α} (h : Triple P x Q E) {s s' : σ} {err : ε} (hs : P s)
    (hrun : x s = .error err s') : E err s' := by
  have hxs := h s hs
  rwa [hrun] at hxs

end Triple

/-- However `x` ends, the states before and after are related. -/
def Leaves {ε σ α : Type} (x : EStateM ε σ α) (R : σ → σ → Prop) : Prop :=
  ∀ s, Triple (· = s) x (fun _ s' => R s s') (fun _ s' => R s s')

namespace Leaves

variable {ε σ α β : Type} {R R' : σ → σ → Prop}

theorem ok {x : EStateM ε σ α} (h : Leaves x R) {s s' : σ} {a : α} (hrun : x s = .ok a s') :
    R s s' := (h s).ok rfl hrun

theorem error {x : EStateM ε σ α} (h : Leaves x R) {s s' : σ} {err : ε}
    (hrun : x s = .error err s') : R s s' := (h s).error rfl hrun

theorem mono {x : EStateM ε σ α} (h : Leaves x R) (hR : ∀ s s', R s s' → R' s s') :
    Leaves x R' := fun s => (h s).conseq (fun _ hs => hs) (fun _ _ => hR s _) (fun _ _ => hR s _)

theorem ret (hrefl : ∀ s, R s s) (a : α) : Leaves (pure a : EStateM ε σ α) R :=
  fun s => Triple.ret fun _ hs => hs ▸ hrefl s

theorem raise (hrefl : ∀ s, R s s) (err : ε) : Leaves (throw err : EStateM ε σ α) R :=
  fun s => Triple.raise fun _ hs => hs ▸ hrefl s

theorem read (hrefl : ∀ s, R s s) : Leaves (get : EStateM ε σ σ) R :=
  fun s => Triple.read fun _ hs => hs ▸ hrefl s

theorem write {f : σ → σ} (h : ∀ s, R s (f s)) : Leaves (modify f : EStateM ε σ Unit) R := by
  refine fun s => Triple.write fun s' hs => ?_
  obtain rfl : s' = s := hs
  exact h s'

theorem bind {x : EStateM ε σ α} {f : α → EStateM ε σ β}
    (htrans : ∀ s s' s'', R s s' → R s' s'' → R s s'')
    (hx : Leaves x R) (hf : ∀ a, Leaves (f a) R) : Leaves (x >>= f) R := by
  intro s
  refine (hx s).bind fun a => Triple.of_state fun s' hs' => ?_
  exact (hf a s').conseq (fun _ hs => hs) (fun _ _ => htrans s s' _ hs')
    (fun _ _ => htrans s s' _ hs')

end Leaves

/-- Wherever `x` is started, what it throws satisfies `E`. -/
def Raises {ε σ α : Type} (x : EStateM ε σ α) (E : ε → σ → Prop) : Prop :=
  Triple (fun _ => True) x (fun _ _ => True) E

namespace Raises

variable {ε σ α β : Type} {E : ε → σ → Prop}

theorem ret (a : α) : Raises (pure a : EStateM ε σ α) E := Triple.ret fun _ hs => hs

theorem raise {err : ε} (h : ∀ s, E err s) : Raises (throw err : EStateM ε σ α) E :=
  Triple.raise fun s _ => h s

theorem read : Raises (get : EStateM ε σ σ) E := Triple.read fun _ hs => hs

theorem write (f : σ → σ) : Raises (modify f : EStateM ε σ Unit) E := Triple.write fun _ hs => hs

theorem bind {x : EStateM ε σ α} {f : α → EStateM ε σ β} (hx : Raises x E)
    (hf : ∀ a, Raises (f a) E) : Raises (x >>= f) E := Triple.bind hx hf

/-- What always comes to a result throws nothing. -/
theorem of_ok {x : EStateM ε σ α} (h : ∀ s, ∃ a s', x s = .ok a s') : Raises x E := by
  intro s _
  obtain ⟨a, s', hrun⟩ := h s
  rw [hrun]
  trivial

theorem error {x : EStateM ε σ α} (h : Raises x E) {s s' : σ} {err : ε}
    (hrun : x s = .error err s') : E err s' := Triple.error h trivial hrun

end Raises
