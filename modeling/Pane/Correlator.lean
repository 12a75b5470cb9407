import Pane.HashTable
import Pane.Messages

namespace Pane.Correlator

open Pane.HashTable Pane.Messages

/-- Tokens of the requests without an answer, each with its session. Tokens
are handed out in order, so the ones in the table lie below the next one. The two
counters are `u64` in the source; `wide_tokens` says when that makes no difference. -/
structure RequestCorrelator where
  nextToken : Token
  outstandingRequests : Nat
  requestCap : UInt16
  tokenSessions : Table Token UInt16
  below : ∀ t, t ∈ tokenSessions → t < nextToken

abbrev TokenOrder := Order (Σ _ : Token, UInt16)

variable {t t' : Token} {sessionId : UInt16}

namespace RequestCorrelator

/-- Starts with token 0, no outstanding requests, cap 0 (unlimited). -/
def new : RequestCorrelator where
  nextToken := 0
  outstandingRequests := 0
  requestCap := 0
  tokenSessions := ∅
  below := fun t ht => by simp at ht

def allocateToken (sessionId : UInt16) (c : RequestCorrelator) : Token × RequestCorrelator :=
  (c.nextToken,
    { c with
      nextToken := c.nextToken + 1
      outstandingRequests := c.outstandingRequests + 1
      tokenSessions := c.tokenSessions.insert c.nextToken sessionId
      below := by
        intro t ht
        obtain ht | ht := (AList.mem_insert c.tokenSessions).mp ht
        · exact ht ▸ Nat.lt_succ_self _
        · exact Nat.lt_succ_of_lt (c.below t ht) })

/-- One outstanding request has been resolved. The count saturates at zero. -/
def recordResolution (token : Token) (c : RequestCorrelator) : RequestCorrelator :=
  { c with
    outstandingRequests := c.outstandingRequests - 1
    tokenSessions := c.tokenSessions.erase token
    below := fun t ht => c.below t (AList.mem_erase.mp ht).2 }

/-- Whether another request would exceed the negotiated cap; 0 is no cap. -/
def wouldExceedCap (c : RequestCorrelator) : Bool :=
  decide (0 < c.requestCap) && decide (c.requestCap.toNat ≤ c.outstandingRequests)

def setCap (cap : UInt16) (c : RequestCorrelator) : RequestCorrelator :=
  { c with requestCap := cap }

def tokensForSession (order : TokenOrder) (sessionId : UInt16) (c : RequestCorrelator) :
    List Token :=
  ((order.arrange c.tokenSessions.entries).filter (fun e => e.2 = sessionId)).map Sigma.fst

def allTokens (order : TokenOrder) (c : RequestCorrelator) : List Token :=
  (order.arrange c.tokenSessions.entries).map Sigma.fst

def clear (c : RequestCorrelator) : RequestCorrelator :=
  { c with
    outstandingRequests := 0
    tokenSessions := ∅
    below := fun t ht => by simp at ht }

def sessionOf (t : Token) (c : RequestCorrelator) : Option UInt16 := c.tokenSessions.lookup t

variable (c : RequestCorrelator)

@[simp] theorem sessionOf_new : new.sessionOf t = none := rfl

theorem lt_of_sessionOf (h : c.sessionOf t = some sessionId) : t < c.nextToken :=
  c.below t (mem_of_lookup h)

@[simp] theorem sessionOf_nextToken : c.sessionOf c.nextToken = none := by
  cases h : c.sessionOf c.nextToken with
  | none => rfl
  | some s => exact absurd (c.lt_of_sessionOf h) (Nat.lt_irrefl _)

theorem sessionOf_allocateToken :
    (c.allocateToken sessionId).2.sessionOf t =
      if t = c.nextToken then some sessionId else c.sessionOf t :=
  lookup_insert ..

@[simp] theorem nextToken_allocateToken :
    (c.allocateToken sessionId).2.nextToken = c.nextToken + 1 := rfl

theorem sessionOf_recordResolution :
    (c.recordResolution t').sessionOf t = if t = t' then none else c.sessionOf t :=
  lookup_erase ..

@[simp] theorem nextToken_recordResolution :
    (c.recordResolution t').nextToken = c.nextToken := rfl

@[simp] theorem sessionOf_clear : c.clear.sessionOf t = none := rfl

/-- While at most `2 ^ 64` tokens have been handed out, they are different as `u64`
too, and so the table can tell them apart. -/
theorem wide_tokens (hnext : c.nextToken ≤ UInt64.size) {s s' : UInt16}
    (h : c.sessionOf t = some s) (h' : c.sessionOf t' = some s') :
    UInt64.ofNat t = UInt64.ofNat t' ↔ t = t' := by
  have hlt : t < UInt64.size := Nat.lt_of_lt_of_le (c.lt_of_sessionOf h) hnext
  have hlt' : t' < UInt64.size := Nat.lt_of_lt_of_le (c.lt_of_sessionOf h') hnext
  refine ⟨fun hsame => ?_, congrArg _⟩
  have htoNat := congrArg UInt64.toNat hsame
  rwa [UInt64.toNat_ofNat_of_lt' hlt, UInt64.toNat_ofNat_of_lt' hlt'] at htoNat

@[simp] theorem nextToken_clear : c.clear.nextToken = c.nextToken := rfl

theorem mem_tokensForSession (order : TokenOrder) :
    t ∈ c.tokensForSession order sessionId ↔ c.sessionOf t = some sessionId := by
  simp only [tokensForSession, List.mem_map, List.mem_filter, Order.mem_arrange,
    decide_eq_true_eq, sessionOf]
  constructor
  · rintro ⟨⟨u, s⟩, ⟨hmem, rfl⟩, rfl⟩
    exact mem_entries_iff.mp hmem
  · intro h
    exact ⟨⟨t, sessionId⟩, ⟨mem_entries_iff.mpr h, rfl⟩, rfl⟩

theorem mem_allTokens (order : TokenOrder) :
    t ∈ c.allTokens order ↔ ∃ s, c.sessionOf t = some s := by
  simp only [allTokens, List.mem_map, Order.mem_arrange, sessionOf]
  constructor
  · rintro ⟨⟨u, s⟩, hmem, rfl⟩
    exact ⟨s, mem_entries_iff.mp hmem⟩
  · rintro ⟨s, h⟩
    exact ⟨⟨t, s⟩, mem_entries_iff.mpr h, rfl⟩

theorem nodup_allTokens (order : TokenOrder) : (c.allTokens order).Nodup := by
  have h : ((order.arrange c.tokenSessions.entries).map Sigma.fst).Perm c.tokenSessions.keys :=
    (order.perm _).map _
  exact h.nodup_iff.mpr c.tokenSessions.keys_nodup

theorem nodup_tokensForSession (order : TokenOrder) :
    (c.tokensForSession order sessionId).Nodup :=
  (c.nodup_allTokens order).sublist (List.filter_sublist.map _)

end RequestCorrelator

/-- Protocol-layer state of a connection after its handshake. -/
structure ActiveSession where
  correlator : RequestCorrelator
  primaryConnection : PeerScope

namespace ActiveSession

def new (primaryConnection : PeerScope) (maxOutstandingRequests : UInt16) : ActiveSession :=
  ⟨RequestCorrelator.new.setCap maxOutstandingRequests, primaryConnection⟩

def allocateToken (sessionId : UInt16) (a : ActiveSession) : Token × ActiveSession :=
  let (token, correlator) := a.correlator.allocateToken sessionId
  (token, { a with correlator })

def recordResolution (token : Token) (a : ActiveSession) : ActiveSession :=
  { a with correlator := a.correlator.recordResolution token }

@[simp] theorem correlator_recordResolution (token : Token) (a : ActiveSession) :
    (a.recordResolution token).correlator = a.correlator.recordResolution token := rfl

def wouldExceedCap (a : ActiveSession) : Bool := a.correlator.wouldExceedCap

/-- The tokens a session-level failure has to fail. They leave the correlator
at once: the caller is about to fail them. -/
def cascadeSessionFailure (order : TokenOrder) (sessionId : UInt16) (a : ActiveSession) :
    List (PeerScope × Token) × ActiveSession :=
  let tokens := a.correlator.tokensForSession order sessionId
  (tokens.map (fun tok => (a.primaryConnection, tok)),
    tokens.foldl (fun a tok => a.recordResolution tok) a)

/-- The tokens a connection-level failure has to fail: all of them. -/
def cascadeConnectionFailure (order : TokenOrder) (a : ActiveSession) :
    List (PeerScope × Token) × ActiveSession :=
  ((a.correlator.allTokens order).map (fun tok => (a.primaryConnection, tok)),
    { a with correlator := a.correlator.clear })

theorem foldl_recordResolution (tokens : List Token) (a : ActiveSession) :
    let a' := tokens.foldl (fun a tok => a.recordResolution tok) a
    a'.primaryConnection = a.primaryConnection ∧ a'.correlator.nextToken = a.correlator.nextToken ∧
      ∀ t, a'.correlator.sessionOf t = if t ∈ tokens then none else a.correlator.sessionOf t := by
  induction tokens generalizing a with
  | nil => simp
  | cons tok tokens ih =>
    obtain ⟨hpeer, hnext, hlookup⟩ := ih (a.recordResolution tok)
    refine ⟨hpeer, hnext, fun t => ?_⟩
    have h := hlookup t
    rw [correlator_recordResolution, RequestCorrelator.sessionOf_recordResolution] at h
    by_cases ht : t = tok
    · simpa [ht] using h
    · simpa [ht] using h

theorem foldl_recordResolution_induction {P : ActiveSession → Prop}
    (hP : ∀ a t, t ∈ a.correlator.tokenSessions → P a → P (a.recordResolution t))
    {tokens : List Token} (hnodup : tokens.Nodup) {a : ActiveSession}
    (htokens : ∀ t ∈ tokens, t ∈ a.correlator.tokenSessions) (h : P a) :
    P (tokens.foldl (fun a tok => a.recordResolution tok) a) := by
  induction tokens generalizing a with
  | nil => exact h
  | cons tok tokens ih =>
    obtain ⟨htok, hnodup⟩ := List.nodup_cons.mp hnodup
    refine ih hnodup (fun t ht => ?_) (hP a tok (htokens tok List.mem_cons_self) h)
    refine AList.mem_erase.mpr ⟨?_, htokens t (List.mem_cons_of_mem _ ht)⟩
    rintro rfl
    exact htok ht

theorem cascadeSessionFailure_induction {P : ActiveSession → Prop} (a : ActiveSession)
    (order : TokenOrder) (sessionId : UInt16)
    (hP : ∀ a t, t ∈ a.correlator.tokenSessions → P a → P (a.recordResolution t)) (h : P a) :
    P (a.cascadeSessionFailure order sessionId).2 := by
  refine foldl_recordResolution_induction hP (a.correlator.nodup_tokensForSession order) ?_ h
  intro t ht
  exact mem_of_lookup ((a.correlator.mem_tokensForSession order).mp ht)

theorem cascadeSessionFailure_spec (order : TokenOrder) (sessionId : UInt16) (a : ActiveSession) :
    let a' := (a.cascadeSessionFailure order sessionId).2
    a'.primaryConnection = a.primaryConnection ∧ a'.correlator.nextToken = a.correlator.nextToken ∧
      ∀ t, a'.correlator.sessionOf t =
        if a.correlator.sessionOf t = some sessionId then none else a.correlator.sessionOf t := by
  obtain ⟨hpeer, hnext, hlookup⟩ :=
    foldl_recordResolution (a.correlator.tokensForSession order sessionId) a
  refine ⟨hpeer, hnext, fun t => ?_⟩
  have h := hlookup t
  simp only [RequestCorrelator.mem_tokensForSession] at h
  exact h

def Counted (a : ActiveSession) : Prop :=
  a.correlator.outstandingRequests = a.correlator.tokenSessions.keys.length

variable {a : ActiveSession}

theorem Counted.allocateToken (h : a.Counted) (sessionId : UInt16) :
    (a.allocateToken sessionId).2.Counted := by
  have hnew : a.correlator.nextToken ∉ a.correlator.tokenSessions.keys := fun hmem =>
    Nat.lt_irrefl _ (a.correlator.below _ (AList.mem_keys.mpr hmem))
  show a.correlator.outstandingRequests + 1 =
    (a.correlator.tokenSessions.insert a.correlator.nextToken sessionId).keys.length
  rw [AList.keys_insert, List.erase_of_not_mem hnew, List.length_cons, h]

theorem Counted.recordResolution (h : a.Counted) (ht : t ∈ a.correlator.tokenSessions) :
    (a.recordResolution t).Counted := by
  show a.correlator.outstandingRequests - 1 = (a.correlator.tokenSessions.erase t).keys.length
  rw [AList.keys_erase, List.length_erase_of_mem (AList.mem_keys.mp ht), h]

theorem Counted.pos (h : a.Counted) (ht : t ∈ a.correlator.tokenSessions) :
    0 < a.correlator.outstandingRequests := by
  rw [h]
  exact List.length_pos_of_mem (AList.mem_keys.mp ht)

end ActiveSession

end Pane.Correlator
