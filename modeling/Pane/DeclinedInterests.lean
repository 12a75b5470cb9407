import Pane.SteadyRuns

namespace Pane.DeclinedInterests

open Pane.HashTable Pane.Messages Pane.Routing Pane.Routing.RoutingState Pane.Server
open Pane.ServerFrame Pane.ServerActor Pane.RouteSymmetry Pane.RouteTable Pane.Attempts
open Pane.GhostConnections Pane.SteadyRuns Pane.PostcardFormat

/-- The tables that a declaration may change are as they were. -/
structure Unchanged (s s' : RoutingState) : Prop where
  providers : s'.providerIndex = s.providerIndex
  routes : s'.routingTable = s.routingTable
  counters : ∀ d, s'.nextSession.lookup d = s.nextSession.lookup d

theorem Unchanged.refl (s : RoutingState) : Unchanged s s := ⟨rfl, rfl, fun _ => rfl⟩

theorem Unchanged.trans {s₁ s₂ s₃ : RoutingState} (h : Unchanged s₁ s₂) (h' : Unchanged s₂ s₃) :
    Unchanged s₁ s₃ :=
  ⟨h'.providers.trans h.providers, h'.routes.trans h.routes,
    fun d => (h'.counters d).trans (h.counters d)⟩

/-- The consumer has sessions left, but the provider has not: the consumer's session
is allocated before the provider's allocation fails. -/
def Spoiled (s : RoutingState) (consumer : ConnectionId) (service : Uuid) : Prop :=
  ∃ p, s.provider service = some p ∧ p ≠ consumer ∧ s.nextOf consumer ≠ 0xFFFF ∧
    s.nextOf p = 0xFFFF

instance (s : RoutingState) (consumer : ConnectionId) (service : Uuid) :
    Decidable (Spoiled s consumer service) :=
  match h : s.provider service with
  | none => isFalse (by simp [Spoiled, h])
  | some p => decidable_of_iff (p ≠ consumer ∧ s.nextOf consumer ≠ 0xFFFF ∧ s.nextOf p = 0xFFFF)
      (by simp [Spoiled, h])

variable {s s' : RoutingState} {c d : ConnectionId} {service : Uuid} {reason : DeclineReason}

theorem lookup_of_exhausted (h : s.nextOf c = 0xFFFF) :
    s.nextSession.lookup c = some 0xFFFF := by
  unfold nextOf at h
  cases hl : s.nextSession.lookup c with
  | none =>
    rw [hl] at h
    cases h
  | some m =>
    rw [hl] at h
    exact congrArg some h

theorem unchanged_exhausted (h : s.nextOf c = 0xFFFF) :
    Unchanged s { s with nextSession := s.nextSession.insert c 0xFFFF } := by
  refine ⟨rfl, rfl, fun d => ?_⟩
  rw [lookup_insert]
  split
  · next hd =>
    subst hd
    exact (lookup_of_exhausted h).symm
  · rfl

theorem not_unchanged_spoiled {p : ConnectionId} (hne : p ≠ c)
    (hsome : s.nextOf c ≠ 0xFFFF) : ¬ Unchanged s
      { s with nextSession := (s.nextSession.insert c (s.nextOf c + 1)).insert p 0xFFFF } := by
  intro h
  have hc := h.counters c
  rw [lookup_insert, if_neg (Ne.symm hne), lookup_insert, if_pos rfl] at hc
  have hn : s.nextOf c = s.nextOf c + 1 := by
    conv_lhs => unfold nextOf
    rw [← hc]
    rfl
  exact UInt16.ne_of_lt (one_le_add_one hsome).2 hn

theorem unchanged_iff (h : s.handleDeclareInterest c service = (.error reason, s')) :
    Unchanged s s' ↔ ¬ Spoiled s c service := by
  rw [handleDeclareInterest_eq] at h
  cases hp : s.provider service with
  | none =>
    rw [hp] at h
    cases h
    refine iff_of_true (Unchanged.refl s) ?_
    rintro ⟨p, hp', -⟩
    rw [hp] at hp'
    cases hp'
  | some p =>
    rw [hp] at h
    dsimp only at h
    have hspoiled : Spoiled s c service ↔
        p ≠ c ∧ s.nextOf c ≠ 0xFFFF ∧ s.nextOf p = 0xFFFF := by
      simp [Spoiled, hp]
    rw [hspoiled]
    split at h
    · next hself =>
      cases h
      exact iff_of_true (Unchanged.refl s) (fun hs => hs.1 hself)
    next hself =>
    split at h
    · next hc =>
      cases h
      exact iff_of_true (unchanged_exhausted hc) (fun hs => hs.2.1 hc)
    next hc =>
    split at h
    · next hprovider =>
      cases h
      exact iff_of_false (not_unchanged_spoiled hself hc) (fun hs => hs ⟨hself, hc, hprovider⟩)
    · cases h

def declareAll (s : RoutingState) (requests : List (ConnectionId × Uuid)) : RoutingState :=
  requests.foldl (fun s r => (s.handleDeclareInterest r.1 r.2).2) s

/-- Each of the declarations is declined, and none of them is spoiled. -/
def Refused : RoutingState → List (ConnectionId × Uuid) → Prop
  | _, [] => True
  | s, r :: requests => (∃ reason, (s.handleDeclareInterest r.1 r.2).1 = .error reason) ∧
      ¬ Spoiled s r.1 r.2 ∧ Refused (s.handleDeclareInterest r.1 r.2).2 requests

theorem unchanged_declareAll {requests : List (ConnectionId × Uuid)} (h : Refused s requests) :
    Unchanged s (declareAll s requests) := by
  induction requests generalizing s with
  | nil => exact Unchanged.refl s
  | cons r requests ih =>
    obtain ⟨⟨reason, hr⟩, hspoiled, hrest⟩ := h
    exact ((unchanged_iff (Prod.ext hr rfl)).mpr hspoiled).trans (ih hrest)

def unheardOf : Uuid := ⟨List.replicate 16 0xC2, rfl⟩

/-- A declined declaration has no effect on the providers, the routes and the session
counters exactly when it does not fail between its two allocations, and any number of
such declarations have none together. -/
theorem declined_unchanged_iff (s s' : RoutingState) (c : ConnectionId) (service : Uuid)
    (reason : DeclineReason) (requests : List (ConnectionId × Uuid))
    (h : s.handleDeclareInterest c service = (.error reason, s')) :
    (Unchanged s s' ↔ ¬ Spoiled s c service) ∧
    (Refused s requests → Unchanged s (declareAll s requests)) :=
  ⟨unchanged_iff h, unchanged_declareAll⟩

theorem declined_unchanged_handshake :
    let s := (actorLoop postcard (fun _ => true) handshake).toRoutingState
    s.handleDeclareInterest ⟨1⟩ clipboard = (.error .selfProvide, s) ∧
    Refused s [(⟨1⟩, clipboard), (⟨1⟩, unheardOf)] ∧
    Unchanged s (declareAll s [(⟨1⟩, clipboard), (⟨1⟩, unheardOf)]) := by
  intro s
  have hself : s.handleDeclareInterest ⟨1⟩ clipboard = (.error .selfProvide, s) := by
    have hp : s.provider clipboard = some ⟨1⟩ := by decide +kernel
    rw [handleDeclareInterest_eq, hp]
    exact if_pos rfl
  have hrefused : Refused s [(⟨1⟩, clipboard), (⟨1⟩, unheardOf)] :=
    ⟨⟨.selfProvide, by decide +kernel⟩, by decide +kernel, ⟨.serviceUnknown, by decide +kernel⟩,
      by decide +kernel, trivial⟩
  exact ⟨hself, hrefused, (declined_unchanged_iff s s ⟨1⟩ clipboard _ _ hself).2 hrefused⟩

section Exhaustion

/-- Connection 1 provides a service, connections 2 and 3 do not, and connection 2
declares it over and over. -/
def exhausting (n : Nat) : List Input :=
  [⟨.newConnection ⟨1⟩ ⟨[clipboard]⟩, .stored⟩, ⟨.newConnection ⟨2⟩ ⟨[]⟩, .stored⟩,
    ⟨.newConnection ⟨3⟩ ⟨[]⟩, .stored⟩] ++
  List.replicate n ⟨.frame ⟨2⟩ 0 (controlMessage.encode (.declareInterest clipboard 1)), .stored⟩

theorem orderly_exhausting (n : Nat) : Orderly [] (exhausting n) := by
  have h : ∀ n, Orderly [⟨3⟩, ⟨2⟩, ⟨1⟩] (List.replicate n
      ⟨.frame ⟨2⟩ 0 (controlMessage.encode (.declareInterest clipboard 1)), .stored⟩) := by
    intro n
    induction n with
    | zero => trivial
    | succ n ih => exact ⟨by decide, ih⟩
  exact ⟨by decide, by decide, by decide, h n⟩

structure Worn (n : Nat) (s : ServerState) : Prop where
  quiet : s.overflowTeardown = []
  provider : s.provider clipboard = some ⟨1⟩
  first : s.nextOf ⟨1⟩ = UInt16.ofNat (n + 1)
  second : s.nextOf ⟨2⟩ = UInt16.ofNat (n + 1)
  third : s.nextSession.lookup ⟨3⟩ = some 1
  writer : ⟨3⟩ ∈ s.writers

theorem overflowTeardown_willing {s : ServerState} (h : s.overflowTeardown = []) (c : Call) :
    (exec postcard (fun _ => true) s c).overflowTeardown = [] := by
  apply grows_exec postcard (fun _ => true) (P := fun _ overflowed => overflowed = [])
  · exact fun _ _ _ h => h
  · exact fun _ _ _ _ => rfl
  · exact h

theorem actorStep_willing {s : ServerState} (h : s.overflowTeardown = []) (input : Input) :
    actorStep postcard (fun _ => true) s input =
      exec postcard (fun _ => true) s (.event input.order input.event) :=
  if_pos (overflowTeardown_willing h (.event input.order input.event))

theorem ofNat_succ_ne {n : Nat} (h : n + 1 ≤ 65534) : UInt16.ofNat (n + 1) ≠ 0xFFFF := by
  intro heq
  have hnat := congrArg UInt16.toNat heq
  rw [UInt16.toNat_ofNat_of_lt' (show n + 1 < 65536 by omega)] at hnat
  change n + 1 = 65535 at hnat
  omega

theorem worn_step {n : Nat} {s : ServerState} (hn : n + 1 ≤ 65534) (hs : Worn n s) :
    Worn (n + 1) (actorStep postcard (fun _ => true) s
      ⟨.frame ⟨2⟩ 0 (controlMessage.encode (.declareInterest clipboard 1)), .stored⟩) := by
  have hmore : ∀ d, s.nextOf d = UInt16.ofNat (n + 1) → s.nextOf d ≠ 0xFFFF :=
    fun d hd => hd ▸ ofNat_succ_ne hn
  rw [actorStep_willing hs.quiet]
  have hcontrol : controlOf postcard
      (.event .stored (.frame ⟨2⟩ 0 (controlMessage.encode (.declareInterest clipboard 1)))) =
      some (⟨2⟩, .declareInterest clipboard 1) := by
    decide +kernel
  have hrouting : (exec postcard (fun _ => true) s
      (.event .stored (.frame ⟨2⟩ 0 (controlMessage.encode (.declareInterest clipboard 1))))
      ).toRoutingState = s.link ⟨2⟩ ⟨1⟩ := by
    rw [toRoutingState_declaration _ hcontrol, handleDeclareInterest_eq, hs.provider]
    simp [hmore _ hs.first, hmore _ hs.second]
  refine ⟨overflowTeardown_willing hs.quiet _, ?_, ?_, ?_, ?_, ?_⟩
  · rw [hrouting]
    exact hs.provider
  · rw [hrouting, nextOf_link (by decide), if_pos (.inl rfl), hs.first]
    exact (UInt16.ofNat_add (n + 1) 1).symm
  · rw [hrouting, nextOf_link (by decide), if_pos (.inr rfl), hs.second]
    exact (UInt16.ofNat_add (n + 1) 1).symm
  · rw [hrouting, link, lookup_insert, if_neg (by decide), lookup_insert, if_neg (by decide)]
    exact hs.third
  · rw [hrouting]
    exact hs.writer

theorem worn_exhausting {n : Nat} (h : n ≤ 65534) :
    Worn n (actorLoop postcard (fun _ => true) (exhausting n)) := by
  induction n with
  | zero => exact ⟨rfl, by decide, by decide, by decide, by decide, by decide⟩
  | succ n ih =>
    have hlast : exhausting (n + 1) = exhausting n ++
        [⟨.frame ⟨2⟩ 0 (controlMessage.encode (.declareInterest clipboard 1)), .stored⟩] := by
      rw [exhausting, List.replicate_succ', ← List.append_assoc]
      rfl
    rw [hlast, actorLoop, List.foldl_append]
    exact worn_step h (ih (by omega))

/-- The provider's sessions are used up. Connection 3 is told so, but its own counter
has moved. -/
theorem declined_with_effect :
    Orderly [] (exhausting 65534) ∧
    ⟨3⟩ ∈ (actorLoop postcard (fun _ => true) (exhausting 65534)).writers ∧
    ((actorLoop postcard (fun _ => true) (exhausting 65534)).handleDeclareInterest ⟨3⟩
      clipboard).1 = .error .sessionExhausted ∧
    (actorLoop postcard (fun _ => true) (exhausting 65534)).nextSession.lookup ⟨3⟩ = some 1 ∧
    ((actorLoop postcard (fun _ => true) (exhausting 65534)).handleDeclareInterest ⟨3⟩
      clipboard).2.nextSession.lookup ⟨3⟩ = some 2 := by
  have h := worn_exhausting (n := 65534) (Nat.le_refl _)
  generalize actorLoop postcard (fun _ => true) (exhausting 65534) = s at h
  have hthird : s.nextOf ⟨3⟩ = 1 := by
    rw [nextOf, h.third]
    rfl
  have hfirst : s.nextOf ⟨1⟩ = 0xFFFF := h.first
  have hanswer : s.handleDeclareInterest ⟨3⟩ clipboard = (.error .sessionExhausted,
      { s.toRoutingState with
        nextSession := (s.nextSession.insert ⟨3⟩ 2).insert ⟨1⟩ 0xFFFF }) := by
    rw [handleDeclareInterest_eq, h.provider]
    simp [hthird, hfirst]
  refine ⟨orderly_exhausting _, h.writer, by rw [hanswer], h.third, ?_⟩
  rw [hanswer, lookup_insert, if_neg (by decide), lookup_insert, if_pos rfl]

end Exhaustion

end Pane.DeclinedInterests
