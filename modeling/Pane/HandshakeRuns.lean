import Pane.Accepting
import Pane.PostcardFormat
import Pane.WireProgress

namespace Pane.HandshakeRuns

open Pane.HashTable Pane.Messages Pane.Server Pane.ServerActor Pane.Framing Pane.CoreRequest
open Pane.ConnectionSource Pane.Links Pane.Streams Pane.WireSystem Pane.Handshake Pane.Machines
open Pane.Accepting Pane.PostcardFormat Pane.WireProgress

variable {site : Site} {i : Nat} {line line' : Line}

/-- The messages of the handshake are read back, and their lengths fit into the
length prefix. -/
structure Sane (site : Site) : Prop where
  roundTrip : site.cbor.RoundTrip
  hellos : ∀ {i hello bytes}, site.hellos i = some hello →
    site.cbor.helloIntoWriter hello = .ok bytes → Measured (0, bytes)
  decisions : ∀ {hello bytes}, site.cbor.decisionIntoWriter (decision hello) = .ok bytes →
    Measured (0, bytes)

theorem decision_ok {hello : Handshake.Hello} (h : hello.version = 1) :
    decision hello = .ok (welcome hello) := if_pos h

theorem decision_err {hello : Handshake.Hello} (h : hello.version ≠ 1) :
    decision hello = .err (rejection hello.version) := if_neg h

def Checked : Accept → Prop
  | .rejecting hello => hello.version ≠ 1
  | .welcoming hello _ => hello.version = 1
  | .serving hello _ => hello.version = 1
  | _ => True

theorem Checked.decision {accept : Accept} (h : Checked accept) {d : Decision}
    (hd : accept.decision = some d) : ∃ hello, accept.hello = some hello ∧ d = decision hello := by
  cases accept with
  | rejecting hello =>
    cases hd
    exact ⟨hello, rfl, (decision_err (h)).symm⟩
  | serving hello connId =>
    cases hd
    exact ⟨hello, rfl, (decision_ok (h)).symm⟩
  | _ => cases hd

structure Fresh (w : Wire Stream) : Prop where
  phase : w.phase = .new
  taken : w.taken = []
  channel : w.channel = []
  wrote : w.wrote = []
  delivered : w.delivered = []
  deaf : w.deaf = false

variable (site i) in
/-- What holds of a line at every moment, about its two directions and about what
its two sides believe. -/
structure Sound (line : Line) : Prop where
  checked : Checked line.accept
  fresh : line.accept.connId = none → Fresh line.wire
  undecided : line.accept.decision = none → line.wire.down = still
  unread : ∀ {d}, line.accept.decision = some d → line.client = .starting ∨ line.client = .waiting →
    ∃ bytes rest, site.cbor.decisionIntoWriter d = .ok bytes ∧
      line.wire.down.transit ++ line.wire.down.unsent = frameBytes 0 bytes ++ rest
  connected : ∀ {w}, line.client = .connected w → line.accept.decision = some (.ok w)
  refused : ∀ {r}, line.client = .failed (.rejected r) → line.accept.decision = some (.err r)
  silent : ∀ {hello}, site.hellos i = some hello → line.client = .starting →
    line.accept = .reading ∧ line.wire.up = still
  asking : ∀ {hello}, site.hellos i = some hello → line.ended = none → line.accept = .reading →
    (line.client ≠ .waiting ∧ line.wire.up = still) ∨
    ∃ bytes, site.cbor.helloIntoWriter hello = .ok bytes ∧
      line.wire.up.transit ++ line.wire.up.unsent = frameBytes 0 bytes
  asked : ∀ {hello h}, site.hellos i = some hello → line.accept = .checking h → line.wire.up = still
  heard : ∀ {hello h}, site.hellos i = some hello → line.accept.hello = some h → h = hello.received
  stranger : site.hellos i = none → line.client = .starting ∧ line.wire.up.unsent = []
  ended : ∀ {reason}, line.ended = some (.failed (.rejected reason)) →
    reason = .versionMismatch ∧ ∃ hello, line.accept = .rejecting hello

theorem sound_new : Sound site i Line.new where
  checked := trivial
  fresh _ := ⟨rfl, rfl, rfl, rfl, rfl, rfl⟩
  undecided _ := rfl
  unread h := by cases h
  connected h := by cases h
  refused h := by cases h
  silent _ _ := ⟨rfl, rfl⟩
  asking _ _ _ := .inl ⟨by simp [Line.new], rfl⟩
  asked _ h := by cases h
  heard _ h := by cases h
  stranger _ := ⟨rfl, rfl⟩
  ended h := by cases h

theorem eq_still {q : Stream} (h : q.transit ++ q.unsent = []) : q = still := by
  obtain ⟨htransit, hunsent⟩ := List.append_eq_nil_iff.mp h
  cases q
  cases htransit
  cases hunsent
  rfl

theorem knows_new (limit : UInt32) : Knows (FrameCodec.new limit) :=
  .inr ((AList.mem_insert _).mpr (.inl rfl))

theorem knows_newPermissive (limit : UInt32) : Knows (FrameCodec.newPermissive limit) := .inl rfl

def told : Decision → Client
  | .ok w => .connected w
  | .err r => .failed (.rejected r)

theorem readDecision_frame {cbor : Cbor} (hcbor : cbor.RoundTrip) {d : Decision} {bytes : Bytes}
    (hbytes : cbor.decisionIntoWriter d = .ok bytes) (hd : d.received = d) :
    ofDecision (readDecision cbor (.ok (.message 0 bytes))) = told d := by
  have hread := hcbor.decision hbytes
  rw [hd] at hread
  simp only [readDecision, payloadOf, ↓reduceIte, hread]
  cases d <;> rfl

theorem readHello_frame {cbor : Cbor} (hcbor : cbor.RoundTrip) {hello : Handshake.Hello}
    {bytes : Bytes} (hbytes : cbor.helloIntoWriter hello = .ok bytes) :
    readHello cbor (.ok (.message 0 bytes)) = .ok hello.received := by
  simp only [readHello, payloadOf, ↓reduceIte, hcbor.hello hbytes]

theorem readDecision_error {cbor : Cbor} (e : FrameError) :
    ofDecision (readDecision cbor (.error e)) =
      .failed (.transport (.connectionAborted (display e))) := rfl

theorem decision_read (hsane : Sane site) (h : Sound site i line) (hclient : line.client = .waiting)
    {frame : Except FrameError Frame} {down : Stream}
    (hread : readFrom (FrameCodec.new handshakeMaxMessageSize) line.wire.down = some (frame, down)) :
    (∃ d rest bytes, line.accept.decision = some d ∧ site.cbor.decisionIntoWriter d = .ok bytes ∧
      line.wire.down.transit ++ line.wire.down.unsent = frameBytes 0 bytes ++ rest ∧
      down.transit ++ down.unsent = rest ∧ down.unsent = line.wire.down.unsent ∧
      ofDecision (readDecision site.cbor frame) = told d) ∨
    ∃ e d bytes, line.accept.decision = some d ∧ site.cbor.decisionIntoWriter d = .ok bytes ∧
      handshakeMaxMessageSize.toNat < 2 + bytes.length ∧ down.unsent = line.wire.down.unsent ∧
      ofDecision (readDecision site.cbor frame) = .failed (.transport e) := by
  cases hd : line.accept.decision with
  | none =>
    rw [h.undecided hd, readFrom_nil rfl] at hread
    cases hread
  | some d =>
    obtain ⟨bytes, rest, hbytes, hdown⟩ := h.unread hd (.inr hclient)
    obtain ⟨hello, -, rfl⟩ := h.checked.decision hd
    obtain ⟨-, rfl, hrest, hunsent⟩ | ⟨hlarge, declared, max, rfl⟩ :=
      readFrom_frame (knows_new _) (hsane.decisions hbytes) hdown hread
    · exact .inl ⟨_, rest, bytes, rfl, hbytes, hdown, hrest, hunsent,
        readDecision_frame hsane.roundTrip hbytes (received_decision hello)⟩
    · obtain ⟨left, -, -, rfl⟩ := readFrom_eq hread
      exact .inr ⟨_, _, bytes, rfl, hbytes, hlarge, rfl, readDecision_error _⟩

theorem hello_read (hsane : Sane site) (h : Sound site i line) (hopen : line.ended = none)
    (haccept : line.accept = .reading) {hello : Handshake.Hello} (hhello : site.hellos i = some hello)
    {frame : Except FrameError Frame} {up : Stream}
    (hread : readFrom (FrameCodec.newPermissive handshakeMaxMessageSize) line.wire.up = some (frame, up)) :
    (readHello site.cbor frame = .ok hello.received ∧ up = still) ∨
    ∃ e bytes, site.cbor.helloIntoWriter hello = .ok bytes ∧
      handshakeMaxMessageSize.toNat < 2 + bytes.length ∧
      readHello site.cbor frame = .error (.transport e) := by
  obtain ⟨-, hstill⟩ | ⟨bytes, hbytes, hup⟩ := h.asking hhello hopen haccept
  · rw [hstill, readFrom_nil rfl] at hread
    cases hread
  · rw [← List.append_nil (frameBytes 0 bytes)] at hup
    obtain ⟨-, rfl, hrest, -⟩ | ⟨hlarge, declared, max, rfl⟩ :=
      readFrom_frame (knows_newPermissive _) (hsane.hellos hhello hbytes) hup hread
    · exact .inl ⟨readHello_frame hsane.roundTrip hbytes, eq_still hrest⟩
    · exact .inr ⟨_, bytes, hbytes, hlarge, rfl⟩

theorem Sound.decision_eq (h : Sound site i line) {hello : Handshake.Hello}
    (hhello : site.hellos i = some hello) {d : Decision} (hd : line.accept.decision = some d) : d = decision hello := by
  obtain ⟨h', hh', rfl⟩ := h.checked.decision hd
  rw [h.heard hhello hh', decision_received]

theorem Sound.proceed (h : Sound site i line) {hello : Handshake.Hello}
    {accept : Accept} {down : Stream} (hafter : accept.hello = some hello)
    (hbefore : line.accept.hello = some hello) (hundecided : line.accept.decision = none)
    (hchecked : Checked accept)
    (hconnId : accept.connId = none → line.accept.connId = none)
    (hdecided : ∀ hello, accept ≠ .checking hello)
    (hdown : accept.decision = none ∧ down = still ∨
      ∃ d bytes, accept.decision = some d ∧ site.cbor.decisionIntoWriter d = .ok bytes ∧
        down = ⟨frameBytes 0 bytes, []⟩) :
    Sound site i { line with accept, wire.down := down } where
  checked := hchecked
  fresh hid := { h.fresh (hconnId hid) with }
  undecided hd := by
    obtain ⟨-, hstill⟩ | ⟨d, bytes, hd', -, -⟩ := hdown
    · exact hstill
    · cases hd.symm.trans hd'
  unread := by
    intro d hd _
    obtain ⟨hnone, -⟩ | ⟨d', bytes, hd', hbytes, rfl⟩ := hdown
    · cases hd.symm.trans hnone
    · cases hd.symm.trans hd'
      exact ⟨bytes, [], hbytes, (List.append_nil _).symm⟩
  connected hc := by cases (h.connected hc).symm.trans hundecided
  refused hc := by cases (h.refused hc).symm.trans hundecided
  silent hsome hc := by
    rw [(h.silent hsome hc).1] at hbefore
    cases hbefore
  asking _ _ hc := by
    cases hc
    cases hafter
  asked _ hc := absurd hc (hdecided _)
  heard hsome hc := by
    cases hafter.symm.trans hc
    exact h.heard hsome hbefore
  stranger := h.stranger
  ended he := by
    obtain ⟨-, hello', hc⟩ := h.ended he
    rw [hc] at hundecided
    cases hundecided

theorem Sound.clientDone (h : Sound site i line) {client : Client} {down : Stream}
    (hstarting : client ≠ .starting) (hwaiting : client ≠ .waiting) (hknown : site.hellos i ≠ none)
    (hconnected : ∀ {w}, client = .connected w → line.accept.decision = some (.ok w))
    (hrefused : ∀ {r}, client = .failed (.rejected r) → line.accept.decision = some (.err r))
    (hdown : line.accept.decision = none → down = still) :
    Sound site i { line with client, wire.down := down } :=
  { h with
    fresh := fun hid => { h.fresh hid with }
    undecided := hdown
    unread := fun _ hc => by simp [hstarting, hwaiting] at hc
    connected := hconnected
    refused := hrefused
    silent := fun _ hc => absurd hc hstarting
    asking := fun hsome hopen hc =>
      (h.asking hsome hopen hc).imp_left fun hs => ⟨hwaiting, hs.2⟩
    stranger := fun hnone => absurd hnone hknown }

theorem sound_took (hsane : Sane site) {next next' : Nat} {step : Step} (h : Sound site i line)
    (htook : Took site i line next step line' next') : Sound site i line' := by
  cases htook with
  | speechless hello text hclient hhello hcbor =>
    exact h.clientDone (by simp) (by simp) (by simp [hhello]) (fun hc => by cases hc)
      (fun hc => by cases hc) h.undecided
  | hello hello bytes hclient hhello hcbor hidle =>
    obtain ⟨hreading, hstill⟩ := h.silent hhello hclient
    exact { h with
      fresh := fun hid => { h.fresh hid with }
      unread := fun hd _ => h.unread hd (.inl hclient)
      connected := fun hc => by cases hc
      refused := fun hc => by cases hc
      silent := fun _ hc => by cases hc
      asking := fun hhello' _ _ => by
        rw [hhello] at hhello'
        cases hhello'
        exact .inr ⟨bytes, hcbor, by rw [hstill]; rfl⟩
      asked := fun _ hc => by
        rw [hreading] at hc
        cases hc
      stranger := fun hnone => by simp [hhello] at hnone }
  | decision frame down hclient hread =>
    have hknown : site.hellos i ≠ none := fun hnone => by
      cases hclient.symm.trans (h.stranger hnone).1
    obtain ⟨d, rest, bytes, hd, -, -, -, -, htold⟩ | ⟨e, d, bytes, hd, -, -, -, htold⟩ :=
      decision_read hsane h hclient hread
    · rw [htold]
      refine h.clientDone ?_ ?_ hknown ?_ ?_ (fun hnone => by cases hd.symm.trans hnone)
      · cases d <;> simp [told]
      · cases d <;> simp [told]
      · intro w hc
        cases d <;> cases hc
        exact hd
      · intro r hc
        cases d <;> cases hc
        exact hd
    · rw [htold]
      exact h.clientDone (by simp) (by simp) hknown (fun hc => by cases hc) (fun hc => by cases hc)
        (fun hnone => by cases hd.symm.trans hnone)
  | clientFails error e hclient =>
    refine h.clientDone (by simp) (by simp) (fun hnone => ?_) (fun hc => by cases hc)
      (fun hc => by cases hc) h.undecided
    cases hclient.symm.trans (h.stranger hnone).1
  | arrive bytes hhello =>
    exact { h with
      fresh := fun hid => { h.fresh hid with }
      silent := fun hsome => by simp [hhello] at hsome
      asking := fun hsome => by simp [hhello] at hsome
      asked := fun hsome => by simp [hhello] at hsome
      heard := fun hsome => by simp [hhello] at hsome
      stranger := h.stranger }
  | unread frame up e hopen haccept hread hhello =>
    obtain ⟨left, -, -, rfl⟩ := readFrom_eq hread
    exact { h with
      fresh := fun hid => { h.fresh hid with }
      silent := fun hsome hc => by
        have hstill := (h.silent hsome hc).2
        rw [hstill, readFrom_nil rfl] at hread
        cases hread
      asking := fun _ hc => by cases hc
      asked := fun _ hc => by
        rw [haccept] at hc
        cases hc
      ended := fun he => by cases he }
  | read frame up hello hopen haccept hread hhello =>
    obtain ⟨left, -, -, rfl⟩ := readFrom_eq hread
    have hsilent : ∀ {hello}, site.hellos i = some hello → line.client = .starting → False := by
      intro hello hsome hc
      rw [(h.silent hsome hc).2, readFrom_nil rfl] at hread
      cases hread
    have hundecided : line.accept.decision = none := by
      rw [haccept]
      rfl
    exact {
      checked := trivial
      fresh := fun _ => { h.fresh (by rw [haccept]; rfl) with }
      undecided := fun _ => h.undecided hundecided
      unread := fun hd => by cases hd
      connected := fun hc => absurd ((h.connected hc).symm.trans hundecided) (by simp)
      refused := fun hc => absurd ((h.refused hc).symm.trans hundecided) (by simp)
      silent := fun hsome hc => absurd (hsilent hsome hc) id
      asking := fun _ _ hc => by cases hc
      asked := fun hsome _ => by
        obtain ⟨-, hstill⟩ | ⟨e, -, -, -, herror⟩ := hello_read hsane h hopen haccept hsome hread
        · exact hstill
        · rw [hhello] at herror
          cases herror
      heard := fun hsome hc => by
        cases hc
        obtain ⟨hsame, -⟩ | ⟨e, -, -, -, herror⟩ := hello_read hsane h hopen haccept hsome hread
        · rw [hhello] at hsame
          cases hsame
          rfl
        · rw [hhello] at herror
          cases herror
      stranger := h.stranger
      ended := fun he => by
        obtain ⟨-, hello', hc⟩ := h.ended he
        rw [haccept] at hc
        cases hc }
  | rejectPanics | welcomePanics | acceptFails =>
    exact { h with
      asking := fun _ hc => by cases hc
      ended := fun he => by cases he }
  | reject hello bytes haccept hversion hcbor hidle =>
    have hundecided : line.accept.decision = none := by
      rw [haccept]
      rfl
    rw [h.undecided hundecided]
    refine h.proceed rfl (by rw [haccept]; rfl) hundecided hversion ?_ ?_ (.inr ?_)
    · exact fun _ => by rw [haccept]; rfl
    · exact fun _ hc => by cases hc
    · exact ⟨_, bytes, rfl, hcbor, rfl⟩
  | refuse hello haccept =>
    exact { h with
      asking := fun _ hc => by cases hc
      ended := fun he => by
        cases he
        exact ⟨rfl, hello, haccept⟩ }
  | allocate hello haccept hversion =>
    have hundecided : line.accept.decision = none := by
      rw [haccept]
      rfl
    refine h.proceed rfl (by rw [haccept]; rfl) hundecided hversion ?_ ?_
      (.inl ⟨rfl, h.undecided hundecided⟩)
    · exact fun hc => by cases hc
    · exact fun _ hc => by cases hc
  | welcome hello connId bytes haccept hcbor hidle =>
    have hundecided : line.accept.decision = none := by
      rw [haccept]
      rfl
    have hversion : Checked (.welcoming hello connId) := haccept ▸ h.checked
    rw [h.undecided hundecided]
    refine h.proceed rfl (by rw [haccept]; rfl) hundecided hversion ?_ ?_ (.inr ?_)
    · exact fun hc => by cases hc
    · exact fun _ hc => by cases hc
    · exact ⟨_, bytes, rfl, hcbor, rfl⟩

/-- Whose step an action is. -/
inductive Side
  | server
  | pane
  | up
  | down

def side : Action → Side
  | .greet | .register _ | .serverRead | .serverLeave | .serverWrite => .server
  | .send _ | .paneRead | .paneLeave => .pane
  | .driftUp _ => .up
  | .driftDown _ => .down

theorem limit_server {action : Action} {limit : UInt32} (hside : side action = .server)
    (h : line.limit action = some limit) : ∃ hello connId, line.accept = .serving hello connId ∧
      line.ended = none ∧ limit = hello.maxMessageSize := by
  cases action with
  | register registered =>
    simp only [Line.limit] at h
    split at h
    · next hello connId haccept =>
      obtain ⟨⟨hopen, -⟩, h⟩ := guard_bind h
      cases h
      exact ⟨hello, connId, haccept, hopen, rfl⟩
    · cases h
  | greet | serverRead | serverLeave | serverWrite =>
    simp only [Line.limit] at h
    split at h
    · next hello connId haccept =>
      obtain ⟨hopen, h⟩ := guard_bind h
      cases h
      exact ⟨hello, connId, haccept, hopen, rfl⟩
    · cases h
  | _ => cases hside

theorem limit_pane {action : Action} {limit : UInt32} (hside : side action = .pane)
    (h : line.limit action = some limit) :
    ∃ w, line.client = .connected w ∧ limit = w.maxMessageSize := by
  cases action with
  | send | paneRead | paneLeave =>
    simp only [Line.limit] at h
    split at h
    · next w hclient =>
      cases h
      exact ⟨w, hclient, rfl⟩
    · cases h
  | _ => cases hside

theorem Sound.serving_of_connected (h : Sound site i line) {w : Welcome}
    (hclient : line.client = .connected w) :
    ∃ hello connId, line.accept = .serving hello connId ∧ w = welcome hello := by
  have hd := h.connected hclient
  cases haccept : line.accept with
  | serving hello connId =>
    rw [haccept] at hd
    cases hd
    exact ⟨hello, connId, rfl, rfl⟩
  | _ =>
    rw [haccept] at hd
    cases hd

theorem bytes_of_send {limit : UInt32} {q q' : Stream} {frame : WriteMessage}
    (h : (byteStream limit).send frame q = some q') :
    q'.transit ++ q'.unsent = q.transit ++ q.unsent ++ frameBytes frame.1 frame.2 := by
  obtain ⟨hidle, -, rfl⟩ := send_byteStream h
  rw [hidle, List.append_nil]

theorem bytes_of_drift (limit : UInt32) (n : Nat) (q : Stream) :
    ((byteStream limit).drift n q).transit ++ ((byteStream limit).drift n q).unsent =
      q.transit ++ q.unsent := by
  simp only [byteStream]
  rw [List.append_assoc, List.take_append_drop]

theorem drift_still (limit : UInt32) (n : Nat) : (byteStream limit).drift n still = still := by
  simp [byteStream, still]

theorem Sound.behind (h : Sound site i line) {hello : Handshake.Hello} {connId : Nat}
    (haccept : line.accept = .serving hello connId) {w : Wire Stream}
    (hdown : line.client = .starting ∨ line.client = .waiting → ∃ more,
      w.down.transit ++ w.down.unsent = line.wire.down.transit ++ line.wire.down.unsent ++ more)
    (hup : site.hellos i = none → w.up.unsent = []) : Sound site i { line with wire := w } :=
  { h with
    fresh := fun hid => by cases (congrArg Accept.connId haccept).symm.trans hid
    undecided := fun hd => by cases (congrArg Accept.decision haccept).symm.trans hd
    unread := by
      intro d hd hc
      obtain ⟨bytes, rest, hbytes, hrest⟩ := h.unread hd hc
      obtain ⟨more, hmore⟩ := hdown hc
      refine ⟨bytes, rest ++ more, hbytes, ?_⟩
      rw [hmore, hrest, List.append_assoc]
    silent := fun hsome hc => by cases haccept.symm.trans (h.silent hsome hc).1
    asking := fun _ _ hc => by cases haccept.symm.trans hc
    asked := fun _ hc => by cases haccept.symm.trans hc
    stranger := fun hnone => ⟨(h.stranger hnone).1, hup hnone⟩ }

theorem sound_wire (h : Sound site i line) {action : Action} {limit : UInt32}
    (hlimit : line.limit action = some limit) {conn : ConnectionId} {w : Wire Stream}
    {channel : List WriteMessage} {events : List ServerEvent}
    (hmove : WireSystem.Move (site.threads limit) conn { line.wire with channel } action w events) :
    Sound site i { line with wire := { w with channel := [] } } := by
  -- the threads of the server only add to what the client reads
  have hserver : side action = .server → w.up.unsent = line.wire.up.unsent → (∃ more,
      w.down.transit ++ w.down.unsent = line.wire.down.transit ++ line.wire.down.unsent ++ more) →
      Sound site i { line with wire := { w with channel := [] } } := by
    intro hside hup hdown
    obtain ⟨hello, connId, haccept, -⟩ := limit_server hside hlimit
    exact h.behind haccept (fun _ => hdown) fun hnone => hup.trans (h.stranger hnone).2
  have hpane : side action = .pane → Sound site i { line with wire := { w with channel := [] } } := by
    intro hside
    obtain ⟨welcome, hclient, -⟩ := limit_pane hside hlimit
    obtain ⟨hello, connId, haccept, -⟩ := h.serving_of_connected hclient
    refine h.behind haccept (fun hc => by simp [hclient] at hc) fun hnone => ?_
    cases hclient.symm.trans (h.stranger hnone).1
  cases hmove with
  | greet bytes down hphase hbytes hsend => exact hserver rfl rfl ⟨_, bytes_of_send hsend⟩
  | write frame channel down hphase hchannel hsend =>
    exact hserver rfl rfl ⟨_, bytes_of_send hsend⟩
  | read frame up hphase hreceive | broken up hphase hreceive =>
    exact hserver rfl (receive_shortens hreceive).1 ⟨[], (List.append_nil _).symm⟩
  | register | leave => exact hserver rfl rfl ⟨[], (List.append_nil _).symm⟩
  | send | deliver | cut | deafen => exact hpane rfl
  | driftUp n =>
    have hstill : line.wire.up = still → (byteStream limit).drift n line.wire.up = still := by
      intro hup
      rw [hup, drift_still]
    exact { h with
      fresh := fun hid => { h.fresh hid with channel := rfl }
      silent := fun hsome hc => (h.silent hsome hc).imp_right hstill
      asking := fun hsome hopen hc => by
        obtain hquiet | ⟨bytes, hbytes, hup⟩ := h.asking hsome hopen hc
        · exact .inl (hquiet.imp_right hstill)
        · exact .inr ⟨bytes, hbytes, (bytes_of_drift limit n line.wire.up).trans hup⟩
      asked := fun hsome hc => hstill (h.asked hsome hc)
      stranger := fun hnone => by
        obtain ⟨hclient, hunsent⟩ := h.stranger hnone
        refine ⟨hclient, ?_⟩
        show line.wire.up.unsent.drop n = []
        rw [hunsent, List.drop_nil] }
  | driftDown n =>
    exact { h with
      fresh := fun hid => { h.fresh hid with channel := rfl }
      undecided := fun hd => by
        show (byteStream limit).drift n line.wire.down = still
        rw [h.undecided hd, drift_still]
      unread := by
        intro d hd hc
        obtain ⟨bytes, rest, hbytes, hrest⟩ := h.unread hd hc
        exact ⟨bytes, rest, hbytes, (bytes_of_drift limit n line.wire.down).trans hrest⟩ }

theorem sound_reachable (hsane : Sane site) {ok : State → Accepting.Label → Prop} {x : State}
    (hx : (machine site).Reachable ok x) (i : Nat) : Sound site i (x.lines i) := by
  refine hx.invariant (I := fun x => ∀ i, Sound site i (x.lines i)) ?_ ?_ i
  · rintro x rfl
    exact fun _ => sound_new
  intro x y label h _ hstep
  obtain ⟨j, step, line, next, -, htook, rfl⟩ | ⟨j, action, limit, w, events, -, hlimit, hrun, rfl⟩ |
    ⟨order, -, hact⟩ := step_cases hstep
  · exact (Function.forall_update_iff x.lines (fun i line => Sound site i line)).mpr
      ⟨sound_took hsane (h j) htook, fun i _ => h i⟩
  · exact (Function.forall_update_iff x.lines (fun i line => Sound site i line)).mpr
      ⟨sound_wire (h j) hlimit (move_of_run hrun), fun i _ => h i⟩
  · rw [(act_eq hact).1]
    exact h

theorem serving_numbered (hsane : Sane site) {x : State}
    (hx : (machine site).Reachable (fun _ _ => True) x) {h : Handshake.Hello} {connId : Nat}
    (haccept : (x.lines i).accept = .serving h connId) :
    h.version = 1 ∧ ∀ j, (x.lines j).accept.connId = some connId → j = i := by
  have hchecked : Checked (.serving h connId) := haccept ▸ (sound_reachable hsane hx i).checked
  exact ⟨hchecked, fun j hj =>
    (numbered_reachable hx).1.distinct hj (congrArg Accept.connId haccept)⟩

theorem rejected_unnumbered (hsane : Sane site) {x : State}
    (hx : (machine site).Reachable (fun _ _ => True) x) {reason : RejectReason}
    (hended : (x.lines i).ended = some (.failed (.rejected reason))) :
    reason = .versionMismatch ∧ (x.lines i).accept.connId = none ∧
      ∃ h, (x.lines i).accept = .rejecting h ∧ h.version ≠ 1 := by
  have hsound := sound_reachable hsane hx i
  obtain ⟨hreason, h, haccept⟩ := hsound.ended hended
  have hchecked : Checked (.rejecting h) := haccept ▸ hsound.checked
  exact ⟨hreason, congrArg Accept.connId haccept, h, haccept, hchecked⟩

/-- At every moment of every run, with any number of clients that connect at once and
whatever fails: `accept` serves a version 1 only, under an id that no other call has,
and rejects another version without taking an id. A client of this library that is
connected and its call of `accept` agree on the Hello and the Welcome, and it is told
of a rejection just for its version. -/
theorem handshake_agreement (hsane : Sane site) {x : State}
    (hx : (machine site).Reachable (fun _ _ => True) x) (i : Nat) :
    (∀ h connId, (x.lines i).accept = .serving h connId →
      h.version = 1 ∧ ∀ j, (x.lines j).accept.connId = some connId → j = i) ∧
    (∀ reason, (x.lines i).ended = some (.failed (.rejected reason)) →
      reason = .versionMismatch ∧ (x.lines i).accept.connId = none ∧
        ∃ h, (x.lines i).accept = .rejecting h ∧ h.version ≠ 1) ∧
    ∀ hello, site.hellos i = some hello →
      (∀ w, (x.lines i).client = .connected w → hello.version = 1 ∧ w = welcome hello ∧
        ∃ connId, (x.lines i).accept = .serving hello.received connId) ∧
      (∀ r, (x.lines i).client = .failed (.rejected r) → hello.version ≠ 1 ∧
        r = rejection hello.version ∧ (x.lines i).accept = .rejecting hello.received) ∧
      (∀ h connId, (x.lines i).accept = .serving h connId → hello.version = 1 ∧
        h = hello.received) ∧
      ∀ reason, (x.lines i).ended = some (.failed (.rejected reason)) → hello.version ≠ 1 := by
  refine ⟨fun h connId haccept => serving_numbered hsane hx haccept,
    fun reason hended => rejected_unnumbered hsane hx hended, fun hello hhello => ?_⟩
  have h := sound_reachable hsane hx i
  have hserving : ∀ {h connId}, (x.lines i).accept = .serving h connId →
      hello.version = 1 ∧ h = hello.received := by
    intro h' connId haccept
    have hheard := h.heard hhello (congrArg Accept.hello haccept)
    have hversion := (serving_numbered hsane hx haccept).1
    rw [hheard] at hversion
    exact ⟨hversion, hheard⟩
  have hrejecting : ∀ {h}, (x.lines i).accept = .rejecting h →
      hello.version ≠ 1 ∧ h = hello.received := by
    intro h' haccept
    have hheard := h.heard hhello (congrArg Accept.hello haccept)
    have hversion : Checked (.rejecting h') := haccept ▸ h.checked
    rw [hheard] at hversion
    exact ⟨hversion, hheard⟩
  refine ⟨?_, ?_, fun h connId haccept => hserving haccept, ?_⟩
  · intro w hclient
    obtain ⟨h', connId, haccept, rfl⟩ := h.serving_of_connected hclient
    obtain ⟨hversion, rfl⟩ := hserving haccept
    exact ⟨hversion, rfl, connId, haccept⟩
  · intro r hclient
    have hd := h.refused hclient
    cases haccept : (x.lines i).accept with
    | rejecting h' =>
      obtain ⟨hversion, rfl⟩ := hrejecting haccept
      rw [haccept] at hd
      cases hd
      exact ⟨hversion, rfl, rfl⟩
    | _ =>
      rw [haccept] at hd
      cases hd
  · intro reason hended
    obtain ⟨-, -, h', haccept, -⟩ := rejected_unnumbered hsane hx hended
    exact (hrejecting haccept).1

section Samples

/-- What `ciborium` writes for a number below 256. Its structs are maps from texts. -/
def uintItem (n : Nat) : Bytes := if n < 24 then [.ofNat n] else [0x18, .ofNat n]

def textItem (text : String) : Bytes :=
  let bytes := text.toList.map fun c => UInt8.ofNat c.toNat
  (if bytes.length < 24 then [.ofNat (0x60 + bytes.length)] else [0x78, .ofNat bytes.length]) ++ bytes

def helloItem (hello : Handshake.Hello) : Bytes :=
  0xa5 :: (textItem "version" ++ uintItem hello.version.toNat ++
    textItem "max_message_size" ++ uintItem hello.maxMessageSize.toNat ++
    textItem "max_outstanding_requests" ++ uintItem hello.maxOutstandingRequests.toNat ++
    textItem "interests" ++ [0x80] ++ textItem "provides" ++ [0x80])

def reasonItem : RejectReason → Bytes
  | .versionMismatch => textItem "VersionMismatch"
  | .unauthorized => textItem "Unauthorized"
  | .serverFull => textItem "ServerFull"
  | .serviceUnavailable => textItem "ServiceUnavailable"

def decisionItem : Decision → Bytes
  | .ok w =>
    0xa1 :: (textItem "Ok" ++ 0xa5 :: (textItem "version" ++ uintItem w.version.toNat ++
      textItem "instance_id" ++ textItem w.instanceId ++
      textItem "max_message_size" ++ uintItem w.maxMessageSize.toNat ++
      textItem "max_outstanding_requests" ++ uintItem w.maxOutstandingRequests.toNat ++
      textItem "bindings" ++ [0x80]))
  | .err r =>
    0xa1 :: (textItem "Err" ++ 0xa2 :: (textItem "reason" ++ reasonItem r.reason ++
      textItem "message" ++ r.message.elim [0xf6] textItem))

def visitor : Handshake.Hello := ⟨1, 64, 8, [], []⟩

def outdated : Handshake.Hello := ⟨2, 64, 8, [], []⟩

def modest : Handshake.Hello := ⟨1, 3, 8, [], []⟩

def guestBook : List Handshake.Hello := [visitor, outdated, modest]

/-- CBOR for the messages of three clients that have no services. -/
def visitCbor : Cbor where
  helloIntoWriter hello := if hello ∈ guestBook then .ok (helloItem hello) else .error "hello"
  helloFromReader bytes :=
    ((guestBook.find? fun hello => helloItem hello = bytes).map .ok).getD (.error "no hello")
  decisionIntoWriter d :=
    if d ∈ guestBook.map decision then .ok (decisionItem d) else .error "decision"
  decisionFromReader bytes :=
    (((guestBook.map decision).find? fun d => decisionItem d = bytes).map .ok).getD
      (.error "no decision")

def visit : Site where
  pc := postcard
  cbor := visitCbor
  accepts _ := true
  hellos i := if i = 0 then some visitor else if i = 1 then some outdated else none

theorem ok_of_ite {α : Type} {p : Prop} [Decidable p] {a b : α} {text : String}
    (h : (if p then .ok a else .error text : Except String α) = .ok b) : p ∧ b = a := by
  split at h
  · next hp =>
    cases h
    exact ⟨hp, rfl⟩
  · cases h

theorem roundTrip_visitCbor : visitCbor.RoundTrip where
  hello {hello bytes} h := by
    obtain ⟨hmem, rfl⟩ := ok_of_ite h
    have hall : ∀ hello ∈ guestBook,
        guestBook.find? (fun hello' => helloItem hello' = helloItem hello) =
          some hello.received := by decide +kernel
    simp only [visitCbor, hall hello hmem]
    rfl
  decision {d bytes} h := by
    obtain ⟨hmem, rfl⟩ := ok_of_ite h
    have hall : ∀ d ∈ guestBook.map decision,
        (guestBook.map decision).find? (fun d' => decisionItem d' = decisionItem d) =
          some d.received := by decide +kernel
    simp only [visitCbor, hall d hmem]
    rfl

theorem sane_of_visitCbor {site : Site} (hcbor : site.cbor = visitCbor) : Sane site where
  roundTrip := hcbor ▸ roundTrip_visitCbor
  hellos := by
    intro i hello bytes _ h
    rw [hcbor] at h
    obtain ⟨hmem, rfl⟩ := ok_of_ite h
    have hall : ∀ hello ∈ guestBook, Measured (0, helloItem hello) := by decide +kernel
    exact hall hello hmem
  decisions := by
    intro hello bytes h
    rw [hcbor] at h
    obtain ⟨hmem, rfl⟩ := ok_of_ite h
    have hall : ∀ d ∈ guestBook.map decision, Measured (0, decisionItem d) := by decide +kernel
    exact hall _ hmem

def visits : List Accepting.Label :=
  [.handshake 0 .sendHello, .wire 0 (.driftUp 3), .handshake 1 .sendHello, .wire 1 (.driftUp 200),
    .handshake 2 (.arrive [9, 9]), .wire 0 (.driftUp 200), .handshake 0 .readHello,
    .handshake 1 .readHello, .handshake 0 .allocate, .handshake 1 .reject, .handshake 0 .welcome,
    .wire 1 (.driftDown 200), .handshake 1 .readDecision, .wire 0 (.driftDown 200),
    .handshake 0 .readDecision, .handshake 1 .refuse]

def visited : State := ((machine visit).run visits State.new).get (by decide +kernel)

theorem reachable_visited : (machine visit).Reachable (fun _ _ => True) visited :=
  Machine.Reachable.run (fun _ _ _ => trivial) (.start rfl) (Option.some_get _).symm

theorem handshake_agreement_visit :
    (visited.lines 0).client = .connected (welcome visitor) ∧
    (visited.lines 1).client = .failed (.rejected (rejection 2)) ∧
    (∃ connId, (visited.lines 0).accept = .serving visitor.received connId) ∧
    (visited.lines 1).accept = .rejecting outdated.received := by
  have hwelcomed : (visited.lines 0).client = .connected (welcome visitor) := by decide +kernel
  have hrejected : (visited.lines 1).client = .failed (.rejected (rejection 2)) := by decide +kernel
  have h0 := (handshake_agreement (sane_of_visitCbor rfl) reachable_visited 0).2.2 visitor rfl
  have h1 := (handshake_agreement (sane_of_visitCbor rfl) reachable_visited 1).2.2 outdated rfl
  exact ⟨hwelcomed, hrejected, (h0.1 _ hwelcomed).2.2, (h1.2.1 _ hrejected).2.2⟩

end Samples

end Pane.HandshakeRuns
