import Pane.Framing
import Pane.RoutePipes

namespace Pane.FrameLimits

open Pane.HashTable Pane.Messages Pane.Routing Pane.Server Pane.ServerFrame Pane.ServerActor
open Pane.RouteSymmetry Pane.RouteTable Pane.Offers Pane.RoutePipes Pane.Framing
open Pane.PostcardFormat Pane.Serialization

variable (pc : Postcard) (accepts : Nat → Bool)

/-- The `max_message_size` of the Hello with which each connection came. The
server accepts it as it is, and its own codec for the connection takes it. -/
abbrev Limits := ConnectionId → UInt32

variable (limit : Limits)

def serverCodec (conn : ConnectionId) : FrameCodec :=
  (FrameCodec.newPermissive (16 * 1024 * 1024)).setMaxMessageSize (limit conn)

/-- The reader threads post frames that they have read. -/
def Received (inputs : List Input) : Prop :=
  ∀ input ∈ inputs, ∀ conn service payload, input.event = .frame conn service payload →
    ∃ bytes rest, (serverCodec limit conn).readFrameInner bytes = (.ok (.message service payload), rest)

def Sized (s : ServerState) : Call → Prop
  | .event _ (.frame conn service payload) =>
    service ≠ 0 → ∀ route ∈ s.routingTable.lookup (conn, service),
      (route.peer conn).1 ∈ s.writers → 2 + payload.length ≤ (limit (route.peer conn).1).toNat
  | _ => True

instance (s : ServerState) : (c : Call) → Decidable (Sized limit s c)
  | .event _ (.frame conn service payload) => inferInstanceAs (Decidable (service ≠ 0 →
      ∀ route ∈ s.routingTable.lookup (conn, service), (route.peer conn).1 ∈ s.writers →
        2 + payload.length ≤ (limit (route.peer conn).1).toNat))
  | .event _ (.newConnection _ _) => isTrue trivial
  | .event _ (.disconnected _) => isTrue trivial
  | .drain => isTrue trivial
  | .tearDown _ _ => isTrue trivial

/-- The length field of a frame is within the limit of its receiver. -/
def Fits (f : Outbound) : Prop := 2 + f.payload.length ≤ (limit f.conn).toNat

def Digestible (f : Outbound) : Prop :=
  ∀ codec : FrameCodec, codec.maxMessageSize = limit f.conn → ∀ rest declared max,
    (codec.readFrameInner (frameBytes f.service f.payload ++ rest)).1 ≠
      .error (.oversized declared max)

variable {limit}

theorem mem_forwards {s : ServerState} {c : Call} {f : Outbound} :
    f ∈ forwards s c ↔ ∃ order conn service payload route,
      c = .event order (.frame conn service payload) ∧ service ≠ 0 ∧
      s.routingTable.lookup (conn, service) = some route ∧ (route.peer conn).1 ∈ s.writers ∧
      f = ⟨(route.peer conn).1, (route.peer conn).2, payload⟩ := by
  constructor
  · intro h
    unfold forwards at h
    split at h
    · next order conn service payload =>
      split at h
      · cases h
      · next hservice =>
        obtain ⟨route, hl, hw, rfl⟩ := mem_forwarded h
        exact ⟨order, conn, service, payload, route, rfl, hservice, hl, hw, rfl⟩
    · cases h
  · rintro ⟨order, conn, service, payload, route, rfl, hservice, hl, hw, rfl⟩
    simp [forwards, hservice, forwarded, hl, hw]

theorem sized_iff {s : ServerState} {c : Call} :
    Sized limit s c ↔ ∀ f ∈ forwards s c, Fits limit f := by
  constructor
  · intro h f hf
    obtain ⟨order, conn, service, payload, route, rfl, hservice, hl, hw, rfl⟩ := mem_forwards.mp hf
    exact h hservice route hl hw
  · intro h
    unfold Sized
    split
    · next order conn service payload =>
      intro hservice route hl hw
      exact h _ (mem_forwards.mpr ⟨order, conn, service, payload, route, rfl, hservice, hl, hw, rfl⟩)
    · trivial

theorem mem_offered_execs {known : List ConnectionId} {s : ServerState} {cs : List Call}
    (hs : Sound known s.toRoutingState) (hcs : Legal known cs) {f : Outbound}
    (hf : f.service ≠ 0) :
    f ∈ (execs pc accepts cs s).offered ↔
      f ∈ s.offered ∨ ∃ p ∈ history pc accepts s cs, f ∈ forwards p.1 p.2 := by
  induction cs generalizing known s with
  | nil => simp [history]
  | cons c cs ih =>
    have htell : f ∉ ServerFrame.tell pc s.toRoutingState (notices pc s c) :=
      fun h => hf (service_of_mem_tell pc h)
    rw [execs_cons, ih (sound_exec pc accepts hs hcs.1) hcs.2, offered_exec pc accepts hs.symmetric,
      List.mem_append, List.mem_append, history]
    simp only [htell, false_or, List.exists_mem_cons_iff, or_assoc]

theorem acceptBody_message {codec : FrameCodec} {body payload : Bytes} {service : UInt16}
    (h : codec.acceptBody body = .ok (.message service payload)) : payload = body.drop 2 := by
  simp only [FrameCodec.acceptBody] at h
  split at h
  · cases h
  · split at h
    · cases h
    · cases h
      rfl

theorem readFrameInner_fits {codec : FrameCodec} {bytes rest payload : Bytes} {service : UInt16}
    (h : codec.readFrameInner bytes = (.ok (.message service payload), rest)) :
    2 + payload.length ≤ codec.maxMessageSize.toNat := by
  unfold FrameCodec.readFrameInner at h
  split at h
  · cases h
  · next lenBuf behind hlen =>
    generalize UInt32.ofNat (fromLeBytes lenBuf) = length at h
    unfold FrameCodec.readBody at h
    split at h
    · cases h
    · next hshort =>
      split at h
      · cases h
      · next hlong =>
        split at h
        · cases h
        · next body behind' hbody =>
          have hpayload := acceptBody_message (Prod.mk.inj h).1
          have hlength : body.length = length.toNat := by
            rw [takeBytes] at hbody
            split at hbody
            · cases hbody
              rw [List.length_take]
              omega
            · cases hbody
          rw [UInt32.lt_iff_toNat_lt] at hshort hlong
          change ¬ length.toNat < 2 at hshort
          rw [hpayload, List.length_drop, hlength]
          omega

theorem acceptBody_ne_oversized (codec : FrameCodec) (body : Bytes) (declared max : UInt32) :
    codec.acceptBody body ≠ .error (.oversized declared max) := by
  simp only [FrameCodec.acceptBody]
  split
  · simp
  · split <;> simp

theorem digestible_iff {f : Outbound} (h : 2 + f.payload.length < 2 ^ 32) :
    Digestible limit f ↔ Fits limit f := by
  constructor
  · intro hok
    apply Nat.le_of_not_lt
    intro hlong
    exact hok (FrameCodec.new (limit f.conn)) rfl [] _ _ (readFrameInner_oversized hlong h)
  · intro hfits codec hcodec rest declared max
    have hsize : 2 + f.payload.length ≤ codec.maxMessageSize.toNat := by rwa [hcodec]
    rw [readFrameInner_frameBytes hsize]
    exact acceptBody_ne_oversized codec _ declared max

theorem mem_runCalls {s : ServerState} {inputs : List Input} {order : HashOrder}
    {event : ServerEvent} (h : .event order event ∈ runCalls pc accepts s inputs) :
    ⟨event, order⟩ ∈ inputs := by
  induction inputs generalizing s with
  | nil => cases h
  | cons input inputs ih =>
    rw [runCalls, List.mem_append] at h
    obtain h | h := h
    · have hfirst : Call.event order event = .event input.order input.event := by
        simp only [stepCalls] at h
        split at h
        · exact List.mem_singleton.mp h
        · simpa using h
      cases hfirst
      exact List.mem_cons_self
    · exact List.mem_cons_of_mem _ (ih h)

theorem snd_mem_of_mem_history {s : ServerState} {cs : List Call} {p : ServerState × Call}
    (h : p ∈ history pc accepts s cs) : p.2 ∈ cs := by
  induction cs generalizing s with
  | nil => cases h
  | cons c cs ih =>
    obtain rfl | h := List.mem_cons.mp h
    · exact List.mem_cons_self
    · exact List.mem_cons_of_mem _ (ih h)

/-- The service frames of a run are within the limits of their receivers, and
none of them is taken for an oversized one, exactly if every frame that the
server routes fits the limit at the far end of its route. -/
theorem frames_within_limits (inputs : List Input) (horderly : Orderly [] inputs)
    (hreceived : Received limit inputs) :
    let sized := ∀ p ∈ history pc accepts Server.new (runCalls pc accepts Server.new inputs),
      Sized limit p.1 p.2
    ((∀ f ∈ (actorLoop pc accepts inputs).offered, f.service ≠ 0 → Fits limit f) ↔ sized) ∧
    ((∀ f ∈ (actorLoop pc accepts inputs).offered, f.service ≠ 0 → Digestible limit f) ↔ sized) := by
  intro sized
  have hlegal := legal_runCalls pc accepts Server.new horderly
  have hmem : ∀ {f : Outbound}, f.service ≠ 0 → (f ∈ (actorLoop pc accepts inputs).offered ↔
      ∃ p ∈ history pc accepts Server.new (runCalls pc accepts Server.new inputs),
        f ∈ forwards p.1 p.2) := by
    intro f hf
    rw [actorLoop_eq, mem_offered_execs pc accepts sound_new hlegal hf]
    exact or_iff_right (List.not_mem_nil)
  -- a frame that is forwarded was read, so that its length is a 32-bit number
  have hshort : ∀ f ∈ (actorLoop pc accepts inputs).offered, f.service ≠ 0 →
      2 + f.payload.length < 2 ^ 32 := by
    intro f hf hservice
    obtain ⟨p, hp, hforward⟩ := (hmem hservice).mp hf
    obtain ⟨order, conn, service, payload, route, hcall, -, -, -, rfl⟩ := mem_forwards.mp hforward
    have hcalls := snd_mem_of_mem_history pc accepts hp
    rw [hcall] at hcalls
    obtain ⟨bytes, rest, hread⟩ := hreceived _ (mem_runCalls pc accepts hcalls) conn service payload rfl
    exact Nat.lt_of_le_of_lt (readFrameInner_fits hread) (UInt32.toNat_lt _)
  have hfits : (∀ f ∈ (actorLoop pc accepts inputs).offered, f.service ≠ 0 → Fits limit f) ↔
      sized := by
    constructor
    · intro h p hp
      rw [sized_iff]
      intro f hf
      obtain ⟨pre, hpre, hstate⟩ := mem_history pc accepts hp
      have hsound := sound_execs pc accepts sound_new (legal_initially hpre hlegal)
      rw [← hstate] at hsound
      have hservice := service_of_mem_forwards hsound.symmetric hf
      exact h f ((hmem hservice).mpr ⟨p, hp, hf⟩) hservice
    · intro h f hf hservice
      obtain ⟨p, hp, hforward⟩ := (hmem hservice).mp hf
      exact sized_iff.mp (h p hp) f hforward
  refine ⟨hfits, Iff.trans ?_ hfits⟩
  constructor
  · intro h f hf hservice
    exact (digestible_iff (hshort f hf hservice)).mp (h f hf hservice)
  · intro h f hf hservice
    exact (digestible_iff (hshort f hf hservice)).mpr (h f hf hservice)

theorem received_of_sent {inputs : List Input} (h : ∀ input ∈ inputs, ∀ conn service payload,
    input.event = .frame conn service payload →
      service ≠ 0xFFFF ∧ 2 + payload.length ≤ (limit conn).toNat) : Received limit inputs := by
  intro input hinput conn service payload hevent
  obtain ⟨hservice, hsize⟩ := h input hinput conn service payload hevent
  refine ⟨frameBytes service payload ++ [], [], ?_⟩
  rw [readFrameInner_frameBytes hsize, acceptBody_encoded, if_neg hservice, if_neg]
  rintro ⟨hpermissive, -⟩
  cases hpermissive

theorem frames_within_limits_conversation :
    Orderly [] conversation ∧ Received (fun _ => 4096) conversation ∧
    ∀ f ∈ (actorLoop postcard (fun _ => true) conversation).offered, f.service ≠ 0 →
      Digestible (fun _ => 4096) f := by
  have horderly : Orderly [] conversation := by simp [conversation, handshake, Orderly]
  have hreceived : Received (fun _ => 4096) conversation := by
    apply received_of_sent
    intro input hinput conn service payload hevent
    simp only [conversation, handshake, List.cons_append, List.nil_append, List.mem_cons,
      List.not_mem_nil, or_false] at hinput
    obtain rfl | rfl | rfl | rfl | rfl | rfl := hinput <;> cases hevent <;> decide +kernel
  have hlimits := frames_within_limits postcard (fun _ => true) conversation horderly hreceived
  exact ⟨horderly, hreceived, hlimits.2.mpr (by decide +kernel)⟩

/-- The provider takes frames of 128 bytes, the consumer frames of 64 bytes. -/
def unequal (conn : ConnectionId) : UInt32 := if conn = ⟨2⟩ then 64 else 128

/-- A frame that is within the limit of the provider, but not of the consumer. -/
def bulky : Outbound := ⟨⟨2⟩, 1, List.replicate 63 7⟩

def bulk : List Input := handshake ++ [⟨.frame ⟨1⟩ 1 (List.replicate 63 7), .stored⟩]

/-- The server passes on a frame that its receiver has to take for the end of
the connection. -/
theorem frame_above_limit :
    Orderly [] bulk ∧ Received unequal bulk ∧
    bulky ∈ (actorLoop postcard (fun _ => true) bulk).offered ∧ ¬ Fits unequal bulky ∧
    ((FrameCodec.newPermissive (unequal ⟨2⟩)).readFrameInner
      (frameBytes bulky.service bulky.payload)).1 = .error (.oversized 65 64) := by
  have horderly : Orderly [] bulk := by simp [bulk, handshake, Orderly]
  have hreceived : Received unequal bulk := by
    apply received_of_sent
    intro input hinput conn service payload hevent
    simp only [bulk, handshake, List.cons_append, List.nil_append, List.mem_cons,
      List.not_mem_nil, or_false] at hinput
    obtain rfl | rfl | rfl | rfl := hinput <;> cases hevent <;> decide +kernel
  have hlong : ¬ Fits unequal bulky := by
    show ¬ 2 + bulky.payload.length ≤ (unequal bulky.conn).toNat
    decide
  refine ⟨horderly, hreceived, by decide +kernel, hlong, ?_⟩
  rw [← List.append_nil (frameBytes bulky.service bulky.payload)]
  exact readFrameInner_oversized (by decide) (by decide)

end Pane.FrameLimits
