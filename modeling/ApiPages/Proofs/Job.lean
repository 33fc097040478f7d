import ApiPages.World

/-!
Jobs step by step: what follows a job that went through, and what follows one that failed.
-/
namespace ApiPages

namespace Job

variable {ε α β : Type}

theorem bind_of_ok {x : Job ε α} {f : α → Job ε β} {a : α} {w v : World} (h : x w = .ok a v) :
    (x >>= f) w = f a v := by
  change EStateM.bind x f w = _
  rw [EStateM.bind, h]

theorem bind_of_error {x : Job ε α} {f : α → Job ε β} {e : ε} {w v : World}
    (h : x w = .error e v) : (x >>= f) w = .error e v := by
  change EStateM.bind x f w = _
  rw [EStateM.bind, h]

theorem bind_ok_iff {x : Job ε α} {f : α → Job ε β} {b : β} {w u : World} :
    (x >>= f) w = .ok b u ↔ ∃ a v, x w = .ok a v ∧ f a v = .ok b u := by
  cases hx : x w with
  | ok a v =>
    rw [bind_of_ok hx]
    constructor
    · exact fun h => ⟨a, v, rfl, h⟩
    · rintro ⟨_, _, hsame, h⟩
      cases hsame
      exact h
  | error e v =>
    rw [bind_of_error hx]
    constructor
    · intro h
      cases h
    · rintro ⟨_, _, hsame, _⟩
      cases hsame

theorem bind_congr_world {x : Job ε α} {w v : World} (h : x w = x v) (f : α → Job ε β) :
    (x >>= f) w = (x >>= f) v := by
  cases hx : x v with
  | ok a u => rw [bind_of_ok (h.trans hx), bind_of_ok hx]
  | error e u => rw [bind_of_error (h.trans hx), bind_of_error hx]

theorem ofExcept_of_ok {δ : Type} {wrap : δ → ε} {x : Except δ α} {a : α} (h : x = .ok a)
    (w : World) : ofExcept wrap x w = .ok a w := by
  rw [h]
  rfl

def outcome? (x : Job ε α) (w : World) : Option α :=
  match x w with
  | .ok a _ => some a
  | .error _ _ => none

theorem outcome?_eq_some_iff {x : Job ε α} {w : World} {a : α} :
    outcome? x w = some a ↔ ∃ u, x w = .ok a u := by
  unfold outcome?
  cases x w with
  | ok b u => simp
  | error e u => simp

def failure? (x : Job ε α) (w : World) : Option ε :=
  match x w with
  | .ok _ _ => none
  | .error e _ => some e

theorem failure?_eq_some_iff {x : Job ε α} {w : World} {e : ε} :
    failure? x w = some e ↔ ∃ u, x w = .error e u := by
  unfold failure?
  cases x w with
  | ok a u => simp
  | error f u => simp

def after (x : Job ε α) (w : World) : World :=
  match x w with
  | .ok _ u => u
  | .error _ u => u

theorem eq_ok_of_outcome? {x : Job ε α} {w : World} {a : α} (h : outcome? x w = some a) :
    x w = .ok a (after x w) := by
  unfold outcome? at h
  unfold after
  cases hx : x w with
  | ok b u =>
    rw [hx] at h
    cases h
    rfl
  | error e u =>
    rw [hx] at h
    cases h

theorem eq_error_of_failure? {x : Job ε α} {w : World} {e : ε} (h : failure? x w = some e) :
    x w = .error e (after x w) := by
  unfold failure? at h
  unfold after
  cases hx : x w with
  | ok b u =>
    rw [hx] at h
    cases h
  | error f u =>
    rw [hx] at h
    cases h
    rfl

end Job

end ApiPages
