import Mathlib.Order.Defs.Unbundled

namespace Pane.Unwinding

/-- How a piece of code ends. -/
inductive Outcome (α : Type) where
  | done (a : α)
  | panicked

deriving instance DecidableEq for Outcome

def Code (σ α : Type) := σ → Outcome α × σ

variable {σ α β ρ : Type}

namespace Code

def andThen (m : Code σ α) (f : α → Code σ β) : Code σ β := fun s =>
  match m s with
  | (.done a, s') => f a s'
  | (.panicked, s') => (.panicked, s')

instance : Monad (Code σ) where
  pure a := fun s => (.done a, s)
  bind := andThen

def unwind : Code σ α := fun s => (.panicked, s)

def gets (f : σ → α) : Code σ α := fun s => (.done (f s), s)

def modify (f : σ → σ) : Code σ Unit := fun s => (.done (), f s)

def catchUnwind (m : Code σ α) : Code σ (Option α) := fun s =>
  match m s with
  | (.done a, s') => (.done (some a), s')
  | (.panicked, s') => (.done none, s')

def firstOf (f : β → Code σ (Option ρ)) : List β → Code σ (Option ρ)
  | [] => pure none
  | b :: bs => do
    match ← f b with
    | some r => pure (some r)
    | none => firstOf f bs

def forEach (f : β → Code σ Unit) : List β → Code σ Unit
  | [] => pure ()
  | b :: bs => do f b; forEach f bs

@[simp] theorem pure_apply (a : α) (s : σ) : (pure a : Code σ α) s = (.done a, s) := rfl

@[simp] theorem unwind_apply (s : σ) : (unwind : Code σ α) s = (.panicked, s) := rfl

@[simp] theorem gets_apply (f : σ → α) (s : σ) : gets f s = (.done (f s), s) := rfl

@[simp] theorem modify_apply (f : σ → σ) (s : σ) : modify f s = (.done (), f s) := rfl

theorem bind_apply (m : Code σ α) (f : α → Code σ β) (s : σ) :
    (m >>= f) s = match m s with
      | (.done a, s') => f a s'
      | (.panicked, s') => (.panicked, s') := rfl

theorem firstOf_map (f : β → Code σ (Option ρ)) (g : α → β) (as : List α) :
    firstOf f (as.map g) = firstOf (fun a => f (g a)) as := by
  induction as with
  | nil => rfl
  | cons a as ih =>
    rw [List.map_cons, firstOf, firstOf, ih]

def orNext (m n : Code σ (Option ρ)) : Code σ (Option ρ) := fun s =>
  match m s with
  | (.done none, s') => n s'
  | (.done (some r), s') => (.done (some r), s')
  | (.panicked, s') => (.panicked, s')

theorem firstOf_cons (f : β → Code σ (Option ρ)) (b : β) (bs : List β) :
    firstOf f (b :: bs) = orNext (f b) (firstOf f bs) := by
  funext s
  rw [firstOf, bind_apply, orNext]
  cases f b s with
  | mk o s' =>
    cases o with
    | panicked => rfl
    | done r =>
      cases r with
      | some r => rfl
      | none => rfl

theorem orNext_assoc (m n k : Code σ (Option ρ)) :
    orNext (orNext m n) k = orNext m (orNext n k) := by
  funext s
  unfold orNext
  cases m s with
  | mk o s' =>
    cases o with
    | panicked => rfl
    | done r =>
      cases r with
      | some r => rfl
      | none => rfl

theorem orNext_none (m : Code σ (Option ρ)) : orNext m (pure none) = m := by
  funext s
  unfold orNext
  cases m s with
  | mk o s' =>
    cases o with
    | panicked => rfl
    | done r =>
      cases r with
      | some r => rfl
      | none => rfl

theorem firstOf_singleton (f : β → Code σ (Option ρ)) (b : β) : firstOf f [b] = f b := by
  rw [firstOf_cons]
  exact orNext_none (f b)

theorem firstOf_append (f : β → Code σ (Option ρ)) (bs bs' : List β) :
    firstOf f (bs ++ bs') = orNext (firstOf f bs) (firstOf f bs') := by
  induction bs with
  | nil => rfl
  | cons b bs ih => rw [List.cons_append, firstOf_cons, firstOf_cons, ih, orNext_assoc]

end Code

/-- The weakest precondition: `Q` holds of the way `m` ends from `s`. -/
def Ends (m : Code σ α) (s : σ) (Q : Outcome α → σ → Prop) : Prop := Q (m s).1 (m s).2

namespace Ends

variable {m : Code σ α} {f : α → Code σ β} {s : σ} {Q Q' : Outcome α → σ → Prop}

theorem mono (h : Ends m s Q) (hQ : ∀ o s', Q o s' → Q' o s') : Ends m s Q' := hQ _ _ h

theorem result (h : Ends m s Q) : Ends m s fun o s' => Q o s' ∧ m s = (o, s') := ⟨h, rfl⟩

theorem and {R : Outcome α → σ → Prop} (h : Ends m s Q) (h' : Ends m s R) :
    Ends m s fun o s' => Q o s' ∧ R o s' := ⟨h, h'⟩

theorem congr {m' : Code σ α} {s' : σ} (h : Ends m' s' Q) (hm : m s = m' s') : Ends m s Q := by
  unfold Ends
  rw [hm]
  exact h

theorem bind {Q : Outcome β → σ → Prop}
    (h : Ends m s (fun o s' => match o with
      | .done a => Ends (f a) s' Q
      | .panicked => Q .panicked s')) : Ends (m >>= f) s Q := by
  unfold Ends at h ⊢
  rw [Code.bind_apply]
  cases hm : m s with
  | mk o s' =>
    rw [hm] at h
    cases o with
    | done a => exact h
    | panicked => exact h

theorem pure {a : α} (h : Q (.done a) s) : Ends (Pure.pure a) s Q := h

theorem modify {g : σ → σ} {k : Unit → Code σ β} {Q : Outcome β → σ → Prop}
    (h : Ends (k ()) (g s) Q) : Ends (Code.modify g >>= k) s Q := h

theorem gets {g : σ → α} {Q : Outcome β → σ → Prop} (h : Ends (f (g s)) s Q) :
    Ends (Code.gets g >>= f) s Q := h

theorem seq {R : Outcome α → σ → Prop} {Q : Outcome β → σ → Prop} (hm : Ends m s R)
    (hdone : ∀ a s', R (.done a) s' → Ends (f a) s' Q)
    (hpanic : ∀ s', R .panicked s' → Q .panicked s') : Ends (m >>= f) s Q := by
  apply Ends.bind
  apply hm.mono
  intro o s' ho
  cases o with
  | done a => exact hdone a s' ho
  | panicked => exact hpanic s' ho

theorem catchUnwind {Q : Outcome (Option α) → σ → Prop}
    (h : Ends m s (fun o s' => match o with
      | .done a => Q (.done (some a)) s'
      | .panicked => Q (.done none) s')) : Ends m.catchUnwind s Q := by
  unfold Ends at h ⊢
  unfold Code.catchUnwind
  cases hm : m s with
  | mk o s' =>
    rw [hm] at h
    cases o with
    | done a => exact h
    | panicked => exact h

end Ends

/-- Code that leads from a state to a `D`-related one when it returns, and to a
`P`-related one when it panics. -/
def Moves (D P : σ → σ → Prop) (m : Code σ α) : Prop :=
  ∀ s, Ends m s fun o s' => match o with
    | .done _ => D s s'
    | .panicked => P s s'

namespace Moves

variable {D P D' P' : σ → σ → Prop} {m : Code σ α}

theorem mono (h : Moves D P m) (hD : ∀ s s', D s s' → D' s s') (hP : ∀ s s', P s s' → P' s s') :
    Moves D' P' m := by
  intro s
  apply (h s).mono
  intro o s' ho
  cases o with
  | done a => exact hD s s' ho
  | panicked => exact hP s s' ho

theorem always (h : Moves D D m) (s : σ) : Ends m s fun _ s' => D s s' := by
  apply (h s).mono
  intro o s' ho
  cases o with
  | done a => exact ho
  | panicked => exact ho

theorem of_always (h : ∀ s, Ends m s fun _ s' => D s s') : Moves D D m := by
  intro s
  apply (h s).mono
  intro o s' ho
  cases o with
  | done a => exact ho
  | panicked => exact ho

theorem after [Trans D D D] (h : Moves D D m) {before s : σ} (hbefore : D before s) :
    Ends m s fun _ s' => D before s' :=
  (h.always s).mono fun _ _ h' => Trans.trans (r := D) (s := D) hbefore h'

theorem pure [Std.Refl D] (a : α) : Moves D P (Pure.pure a : Code σ α) := fun s =>
  Std.Refl.refl (r := D) s

theorem unwind [Std.Refl P] : Moves D P (Code.unwind : Code σ α) := fun s =>
  Std.Refl.refl (r := P) s

theorem gets [Std.Refl D] (f : σ → α) : Moves D P (Code.gets f) := fun s =>
  Std.Refl.refl (r := D) s

theorem modify {f : σ → σ} (h : ∀ s, D s (f s)) : Moves D P (Code.modify f) := h

theorem bind [Trans D D D] [Trans D P P] {f : α → Code σ β} (hm : Moves D P m)
    (hf : ∀ a, Moves D P (f a)) : Moves D P (m >>= f) := by
  intro s
  apply Ends.bind
  apply (hm s).mono
  intro o s' ho
  cases o with
  | panicked => exact ho
  | done a =>
    apply (hf a s').mono
    intro o s'' ho'
    cases o with
    | done b => exact Trans.trans (r := D) (s := D) ho ho'
    | panicked => exact Trans.trans (r := D) (s := P) ho ho'

theorem catchUnwind (h : Moves D D m) : Moves D P m.catchUnwind := by
  intro s
  apply Ends.catchUnwind
  apply (h.always s).mono
  intro o s' ho
  cases o with
  | done a => exact ho
  | panicked => exact ho

theorem firstOf [Std.Refl D] [Trans D D D] [Trans D P P] {f : β → Code σ (Option ρ)}
    (hf : ∀ b, Moves D P (f b)) (bs : List β) : Moves D P (Code.firstOf f bs) := by
  induction bs with
  | nil => exact Moves.pure none
  | cons b bs ih =>
    refine Moves.bind (hf b) (fun o => ?_)
    cases o with
    | none => exact ih
    | some r => exact Moves.pure (some r)

theorem forEach [Std.Refl D] [Trans D D D] [Trans D P P] {f : β → Code σ Unit}
    (hf : ∀ b, Moves D P (f b)) (bs : List β) : Moves D P (Code.forEach f bs) := by
  induction bs with
  | nil => exact Moves.pure ()
  | cons b bs ih => exact Moves.bind (hf b) (fun _ => ih)

end Moves

end Pane.Unwinding
