import Mathlib.Data.List.Basic

namespace Pane.Links

variable {F Q : Type}

/-- A medium between one sender and one receiver. The sender may have to wait,
and what was sent moves on step by step. To receive is to find nothing yet, to
find something that ends the conversation, or to find a frame. -/
structure Link (F Q : Type) where
  empty : Q
  send : F → Q → Option Q
  drift : Nat → Q → Q
  receive : Q → Option (Option F × Q)

/-- The medium delivers what was sent, in order, as long as all of it `fits`, or it
ends the conversation; `Carries` tells what is under way. -/
structure Faithful (link : Link F Q) (fits : F → Prop) (Carries : Q → List F → Prop) : Prop where
  empty : Carries link.empty []
  send : ∀ {q q' fs f}, Carries q fs → fits f → link.send f q = some q' → Carries q' (fs ++ [f])
  drift : ∀ {q fs} n, Carries q fs → Carries (link.drift n q) fs
  receive : ∀ {q q' fs f}, Carries q fs → link.receive q = some (some f, q') →
    ∃ rest, fs = f :: rest ∧ Carries q' rest

namespace Link

def queue (F : Type) : Link F (List F) where
  empty := []
  send f fs := some (fs ++ [f])
  drift _ fs := fs
  receive
    | [] => none
    | f :: fs => some (some f, fs)

theorem faithful_queue : Faithful (queue F) (fun _ => True) (· = ·) where
  empty := rfl
  send h _ hsend := h ▸ (Option.some.inj hsend).symm
  drift _ h := h
  receive := by
    rintro q q' fs f rfl hreceive
    cases q with
    | nil => cases hreceive
    | cons g rest =>
      cases hreceive
      exact ⟨_, rfl, rfl⟩

end Link

end Pane.Links
