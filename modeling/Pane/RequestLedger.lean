import Pane.CallbackEffects
import Pane.CoreDispatch

namespace Pane.RequestLedger

open Pane.HashTable Pane.Messages Pane.Correlator Pane.Callbacks Pane.Unwinding Pane.LooperState
open Pane.CallbackEffects Pane.CoreDispatch

variable {H : Type}

/-- The request with this token waits in a callback entry. -/
def Pending (core : LooperCore H) (t : Token) : Prop :=
  (core.primaryConnection, t) ∈ core.dispatch.entries

def PendingAsync (core : LooperCore H) (t : Token) : Prop :=
  (core.primaryConnection, t) ∈ core.dispatch.asyncEntries

instance (core : LooperCore H) (t : Token) : Decidable (Pending core t) :=
  inferInstanceAs (Decidable (_ ∈ core.dispatch.entries))

def sessionOf (core : LooperCore H) (t : Token) : Option UInt16 :=
  core.activeSession.correlator.sessionOf t

def installs (t : Token) : Event → Bool
  | .installed u _ => u = t
  | _ => false

def settles (t : Token) : Event → Bool
  | .called (.onReply u _) => u = t
  | .called (.onFailed u) => u = t
  | .cancelled u => u = t
  | _ => false

def decides (t : Token) : Event → Bool
  | .queued u => u = t
  | .cancelled u => u = t
  | _ => false

/-- The life of every request is in the trace: a callback entry is there from
its installation to the event that uses it up. -/
structure Ledger (core : LooperCore H) : Prop where
  peer : core.activeSession.primaryConnection = core.primaryConnection
  keys : ∀ key, key ∈ core.dispatch.entries ∨ key ∈ core.dispatch.asyncEntries →
    key.1 = core.primaryConnection
  settled : ∀ t, core.trace.countP (settles t) + (if Pending core t then 1 else 0) =
    core.trace.countP (installs t)
  decided : ∀ t, core.trace.countP (decides t) ≤ core.trace.countP (installs t)
  installed : ∀ t, core.trace.countP (installs t) ≤
    if t < core.activeSession.correlator.nextToken then 1 else 0
  kept : ∀ t, Event.discarded t ∉ core.trace

/-- The two tables agree: outstanding is what has an entry, apart from a token
whose entry is just being used. -/
structure Books (firing : Option Token) (core : LooperCore H) : Prop extends Ledger core where
  agree : ∀ t, (sessionOf core t).isSome ↔
    Pending core t ∨ PendingAsync core t ∨ firing = some t
  apart : ∀ t, Pending core t → ¬ PendingAsync core t
  fired : ∀ t, firing = some t → ¬ Pending core t ∧ ¬ PendingAsync core t

def isNeutral : Event → Bool
  | .installed .. => false
  | .queued .. => false
  | .cancelled .. => false
  | .called (.onReply ..) => false
  | .called (.onFailed ..) => false
  | .discarded .. => false
  | _ => true

theorem isNeutral_of_isMinor {e : Event} (h : isMinor e) : isNeutral e := by
  cases e <;> simp_all [isMinor, isNeutral]

theorem neutral_counts {es : List Event} (h : ∀ e ∈ es, isNeutral e) (t : Token) :
    es.countP (settles t) = 0 ∧ es.countP (installs t) = 0 ∧ es.countP (decides t) = 0 ∧
      Event.discarded t ∉ es := by
  refine ⟨?_, ?_, ?_, fun hd => by simpa [isNeutral] using h _ hd⟩
  all_goals
    rw [List.countP_eq_zero]
    intro e he
    have hn := h e he
    revert hn
    cases e with
    | called call => cases call <;> simp [isNeutral, settles, installs, decides]
    | _ => simp [isNeutral, settles, installs, decides]

variable {core core' : LooperCore H} {firing : Option Token} {es : List Event} {t : Token}

theorem pending_congr (hd : core'.dispatch.entries = core.dispatch.entries)
    (hp : core'.primaryConnection = core.primaryConnection) : Pending core' t ↔ Pending core t := by
  rw [Pending, Pending, hd, hp]

theorem pendingAsync_congr (hd : core'.dispatch.asyncEntries = core.dispatch.asyncEntries)
    (hp : core'.primaryConnection = core.primaryConnection) :
    PendingAsync core' t ↔ PendingAsync core t := by
  rw [PendingAsync, PendingAsync, hd, hp]

theorem Ledger.kept_append (h : Ledger core) (htrace : core'.trace = core.trace ++ es)
    (hes : ∀ t, Event.discarded t ∉ es) (t : Token) : Event.discarded t ∉ core'.trace := by
  rw [htrace, List.mem_append]
  exact not_or.mpr ⟨h.kept t, hes t⟩

theorem Ledger.installed_le (h : Ledger core) {n : Token}
    (hn : core.activeSession.correlator.nextToken ≤ n) (t : Token) :
    core.trace.countP (installs t) ≤ if t < n then 1 else 0 := by
  apply Nat.le_trans (h.installed t)
  by_cases hlt : t < core.activeSession.correlator.nextToken
  · rw [if_pos hlt, if_pos (Nat.lt_of_lt_of_le hlt hn)]
  · rw [if_neg hlt]
    exact Nat.zero_le _

theorem Ledger.installed_le_one (h : Ledger core) (t : Token) :
    core.trace.countP (installs t) ≤ 1 := by
  apply Nat.le_trans (h.installed t)
  split <;> decide

theorem Ledger.extend (h : Ledger core) (htrace : core'.trace = core.trace ++ es)
    (hes : ∀ e ∈ es, isNeutral e) (hpend : ∀ t, Pending core' t ↔ Pending core t)
    (hnext : core.activeSession.correlator.nextToken ≤ core'.activeSession.correlator.nextToken)
    (hpeer : core'.activeSession.primaryConnection = core'.primaryConnection)
    (hkeys : ∀ key, key ∈ core'.dispatch.entries ∨ key ∈ core'.dispatch.asyncEntries →
      key.1 = core'.primaryConnection) : Ledger core' := by
  have hcount := neutral_counts hes
  refine ⟨hpeer, hkeys, ?_, ?_, ?_, h.kept_append htrace fun t => (hcount t).2.2.2⟩
  · intro t
    simp only [htrace, List.countP_append, hcount t, hpend, Nat.add_zero]
    exact h.settled t
  · intro t
    simp only [htrace, List.countP_append, hcount t, Nat.add_zero]
    exact h.decided t
  · intro t
    simp only [htrace, List.countP_append, hcount t, Nat.add_zero]
    exact h.installed_le hnext t

theorem Ledger.neutral (h : Ledger core) (hs : Stays core core')
    (htrace : core'.trace = core.trace ++ es) (hes : ∀ e ∈ es, isNeutral e) : Ledger core' := by
  refine h.extend htrace hes (fun t => pending_congr (by rw [hs.dispatch]) hs.primaryConnection)
    (by rw [hs.activeSession]) ?_ ?_
  · rw [hs.activeSession, hs.primaryConnection]
    exact h.peer
  · rw [hs.dispatch, hs.primaryConnection]
    exact h.keys

theorem Books.neutral (h : Books firing core) (hs : Stays core core')
    (htrace : core'.trace = core.trace ++ es) (hes : ∀ e ∈ es, isNeutral e) :
    Books firing core' := by
  have hp : ∀ t, Pending core' t ↔ Pending core t := fun t =>
    pending_congr (by rw [hs.dispatch]) hs.primaryConnection
  have ha : ∀ t, PendingAsync core' t ↔ PendingAsync core t := fun t =>
    pendingAsync_congr (by rw [hs.dispatch]) hs.primaryConnection
  refine ⟨h.toLedger.neutral hs htrace hes, ?_, ?_, ?_⟩
  · intro t
    rw [hp, ha, sessionOf, hs.activeSession]
    exact h.agree t
  · intro t
    rw [hp, ha]
    exact h.apart t
  · intro t
    rw [hp, ha]
    exact h.fired t

end Pane.RequestLedger
