import Pane.HandshakeRuns

namespace Pane.AcceptRefinement

open Pane.HashTable Pane.Messages Pane.Server Pane.ServerActor Pane.Framing Pane.CoreRequest
open Pane.ConnectionSource Pane.Links Pane.Streams Pane.Handshake Pane.Machines Pane.SteadyRuns
open Pane.WireSystem Pane.WireProgress Pane.Accepting Pane.HandshakeRuns

variable {site : Site} {i : Nat} {line line' : Line} {q q' : Stream}

structure Admits (link : UInt32 → Link WriteMessage Stream) : Prop where
  empty : ∀ limit, (link limit).empty = still
  send : ∀ limit, (link limit).send = (byteStream limit).send
  receive : ∀ limit, (link limit).receive = (byteStream limit).receive
  drift : ∀ limit n, ∃ m, (link limit).drift m = (byteStream limit).drift n

def Leaky (link : UInt32 → Link WriteMessage Stream) : Prop :=
  ∀ limit bytes, ∃ m, ∀ q, (link limit).drift m q = { q with transit := q.transit ++ bytes }

variable (site) in
def network (link : UInt32 → Link WriteMessage Stream) (limits : ConnectionId → UInt32) :
    Setting Stream :=
  ⟨site.pc, site.accepts, fun c => link (limits c)⟩

variable (site) in
/-- What the client has not read yet comes before what is sent on the wire. A client
that failed does not read any more. -/
def Follows (line : Line) (q : Stream) : Prop :=
  match line.client with
  | .connected _ => line.wire.down = q
  | .failed _ => line.wire.down.unsent = q.unsent ∨ q.unsent = []
  | _ =>
    match line.accept.decision with
    | none => line.wire.down = still ∧ q = still
    | some d => ∃ bytes, site.cbor.decisionIntoWriter d = .ok bytes ∧
      (line.wire.down.unsent = q.unsent ∧ line.wire.down.transit = frameBytes 0 bytes ++ q.transit ∨
        q = still ∧ line.wire.down.transit ++ line.wire.down.unsent = frameBytes 0 bytes)

variable (site) in
def Tracks (line : Line) (channel : List WriteMessage) (w : Wire Stream) : Prop :=
  ∃ down, w = { line.wire with channel, down } ∧ Follows site line down

variable (site) in
/-- The wires `y` are the lines of `x` behind their handshakes, for the connections
that have an id. -/
structure Refines (net : Setting Stream) (x : State) (y : System Stream) : Prop where
  queue : y.queue = x.queue
  past : y.past = x.past
  server : y.server = x.server
  lines : ∀ {i k}, (x.lines i).accept.connId = some k →
    Tracks site (x.lines i) (x.channels (connection k)) (y.wires (connection k))
  others : ∀ c, (∀ i k, (x.lines i).accept.connId = some k → connection k ≠ c) →
    y.wires c = { Wire.new net c with channel := x.channels c }

/-- The ids suffice, and the limits are those of the Hellos. -/
structure Negotiated (limits : ConnectionId → UInt32) (x : State) : Prop where
  ids : x.nextConnId ≤ 2 ^ 64
  limits : ∀ {i k hello}, (x.lines i).accept.connId = some k →
    (x.lines i).accept.hello = some hello → limits (connection k) = hello.maxMessageSize

theorem connection_inj {k l : Nat} (hk : k < 2 ^ 64) (hl : l < 2 ^ 64)
    (h : connection k = connection l) : k = l := by
  have htoNat := congrArg (fun c : ConnectionId => c.id.toNat) h
  simp only [connection, UInt64.toNat_ofNat'] at htoNat
  omega

section Following

theorem Follows.loose (h : Follows site line q) :
    line.wire.down.unsent = q.unsent ∨ q.unsent = [] := by
  unfold Follows at h
  split at h
  · rw [h]
    exact .inl rfl
  · exact h
  · split at h
    · rw [h.2]
      exact .inr rfl
    · obtain ⟨bytes, -, ⟨hunsent, -⟩ | ⟨rfl, -⟩⟩ := h
      · exact .inl hunsent
      · exact .inr rfl

theorem Follows.idle (h : Follows site line q) (hidle : line.wire.down.unsent = []) :
    q.unsent = [] := by
  obtain hsame | hidle' := h.loose
  · rw [← hsame]
    exact hidle
  · exact hidle'

theorem Follows.fail (h : Follows site line q) (e : ConnectError) :
    Follows site { line with client := .failed e } q := h.loose

theorem follows_still (hclient : ∀ w, line.client ≠ .connected w)
    (hdown : line.wire.down = still) (hdecision : line.accept.decision = none) :
    Follows site line still := by
  unfold Follows
  split
  · next w hconnected => exact absurd hconnected (hclient w)
  · exact .inr rfl
  · rw [hdecision]
    exact ⟨hdown, rfl⟩

theorem Follows.send (h : Follows site line q) (hd : line.accept.decision ≠ none)
    {frame : Bytes} (hidle : line.wire.down.unsent = []) {w : Wire Stream}
    (hw : w.down = ⟨frame, line.wire.down.transit⟩) :
    Follows site { line with wire := w } ⟨frame, q.transit⟩ := by
  have hq := h.idle hidle
  unfold Follows at h ⊢
  dsimp only
  split at h
  · next hclient =>
    rw [hw, h]
  · exact .inl (by rw [hw])
  · cases hdecision : line.accept.decision with
    | none => exact absurd hdecision hd
    | some d =>
      rw [hdecision] at h
      obtain ⟨bytes, hbytes, ⟨-, htransit⟩ | ⟨rfl, hall⟩⟩ := h
      · exact ⟨bytes, hbytes, .inl ⟨by rw [hw], by rw [hw]; exact htransit⟩⟩
      · rw [hidle, List.append_nil] at hall
        exact ⟨bytes, hbytes, .inl ⟨by rw [hw], by rw [hw, still, List.append_nil]; exact hall⟩⟩

theorem Follows.drift (h : Follows site line q) (limit : UInt32) (n : Nat) {w : Wire Stream}
    (hw : w.down = (byteStream limit).drift n line.wire.down) :
    Follows site { line with wire := w } ((byteStream limit).drift n q) := by
  unfold Follows at h ⊢
  dsimp only
  split at h
  · rw [hw, h]
  · rw [hw]
    simp only [byteStream]
    obtain hsame | hidle := h
    · exact .inl (by rw [hsame])
    · exact .inr (by rw [hidle, List.drop_nil])
  · cases hdecision : line.accept.decision with
    | none =>
      rw [hdecision] at h
      rw [hw, h.1, h.2, drift_still]
      exact ⟨rfl, rfl⟩
    | some d =>
      rw [hdecision] at h
      obtain ⟨bytes, hbytes, ⟨hunsent, htransit⟩ | ⟨rfl, hall⟩⟩ := h
      · refine ⟨bytes, hbytes, .inl ?_⟩
        rw [hw]
        simp only [byteStream]
        rw [hunsent, htransit, List.append_assoc]
        exact ⟨rfl, rfl⟩
      · refine ⟨bytes, hbytes, .inr ⟨drift_still limit n, ?_⟩⟩
        rw [hw, bytes_of_drift]
        exact hall

theorem Follows.decision (hsane : Sane site) (hsound : Sound site i line) (h : Follows site line q)
    (hclient : line.client = .waiting) {frame : Except FrameError Frame} {down : Stream}
    (hread : readFrom (FrameCodec.new handshakeMaxMessageSize) line.wire.down = some (frame, down)) :
    Follows site { line with
      client := ofDecision (readDecision site.cbor frame), wire.down := down } q := by
  obtain ⟨d, rest, bytes, hd, hbytes, hall, hrest, hunsent, htold⟩ |
    ⟨e, d, bytes, -, -, -, hunsent, htold⟩ := decision_read hsane hsound hclient hread
  · rw [htold]
    cases d with
    | err r =>
      show down.unsent = q.unsent ∨ q.unsent = []
      rw [hunsent]
      exact h.loose
    | ok w =>
      show down = q
      unfold Follows at h
      rw [hclient] at h
      dsimp only at h
      rw [hd] at h
      obtain ⟨bytes', hbytes', hq⟩ := h
      cases hbytes.symm.trans hbytes'
      obtain ⟨hsame, htransit⟩ | ⟨rfl, hwhole⟩ := hq
      · rw [htransit, List.append_assoc, List.append_cancel_left_eq, hsame] at hall
        rw [← hall, hunsent, hsame] at hrest
        have htransits := List.append_cancel_right hrest
        cases down
        cases q
        simp_all
      · rw [hwhole] at hall
        have hnil : rest = [] := by simpa using hall
        exact eq_still (hrest.trans hnil)
  · rw [htold]
    show down.unsent = q.unsent ∨ q.unsent = []
    rw [hunsent]
    exact h.loose

theorem Follows.beside (h : Follows site line q) {w : Wire Stream} (hw : w.down = line.wire.down) :
    Follows site { line with wire := w } q := by
  unfold Follows at h ⊢
  dsimp only
  rw [hw]
  exact h

end Following

section Wires

variable {link : UInt32 → Link WriteMessage Stream} {limits : ConnectionId → UInt32} {k : Nat}

theorem serving_of_limit (hsound : Sound site i line) {action : Action} {limit : UInt32}
    (hside : side action = .server ∨ side action = .pane) (hlimit : line.limit action = some limit) :
    ∃ hello connId, line.accept = .serving hello connId ∧ hello.maxMessageSize = limit := by
  obtain hside | hside := hside
  · obtain ⟨hello, connId, haccept, -, rfl⟩ := limit_server hside hlimit
    exact ⟨hello, connId, haccept, rfl⟩
  · obtain ⟨w, hclient, rfl⟩ := limit_pane hside hlimit
    obtain ⟨hello, connId, haccept, rfl⟩ := hsound.serving_of_connected hclient
    exact ⟨hello, connId, haccept, rfl⟩

theorem send_idle {limit : UInt32} {frame : WriteMessage} (hidle : q.unsent = [])
    (hservice : frame.1 ≠ 0xFFFF) :
    (byteStream limit).send frame q = some ⟨frameBytes frame.1 frame.2, q.transit⟩ := by
  simp [byteStream, FrameCodec.writeFrame, hidle, hservice]

theorem conn_eq (hk : line.accept.connId = some k) : line.conn = connection k := by
  rw [Line.conn, hk]
  rfl

section Forward

variable {net : Setting Stream} {conn : ConnectionId} {w w' : Wire Stream} {action : Action}
  {events : List ServerEvent}

theorem run_of_move (h : Move net conn w action w' events) (hread : action ≠ .paneRead) :
    action.run net conn w = some (w', events) := by
  cases h with
  | greet bytes down hphase hbytes hsend => simp [Action.run, hphase, hbytes, hsend]
  | register hello hphase => simp [Action.run, hphase]
  | send frame up hsend => simp [Action.run, hsend]
  | read frame up hphase hreceive => simp [Action.run, hphase, hreceive]
  | broken up hphase hreceive => simp [Action.run, hphase, hreceive]
  | leave hphase => simp [Action.run, hphase]
  | write frame channel down hphase hchannel hsend => simp [Action.run, hphase, hchannel, hsend]
  | driftUp n => rfl
  | driftDown n => rfl
  | deafen => rfl
  | deliver => exact absurd rfl hread
  | cut => exact absurd rfl hread

theorem paneRead_congr {net net' : Setting Stream} {conn : ConnectionId} (hpc : net.pc = net'.pc)
    (hreceive : (net.link conn).receive = (net'.link conn).receive) (w : Wire Stream) :
    Action.run net conn w .paneRead = Action.run net' conn w .paneRead := by
  have hdeliver : ∀ down frame, w.deliver net down frame = w.deliver net' down frame := by
    intro down frame
    cases frame with
    | none => rfl
    | some frame => rw [Wire.deliver, Wire.deliver, hpc]
  simp only [Action.run, hreceive, hdeliver]

end Forward

variable (hadmits : Admits link) (hsound : Sound site i line) {action : Action} {limit : UInt32}
  (hlimit : line.limit action = some limit)
  (hlimits : ∀ hello, line.accept.hello = some hello → limits (connection k) = hello.maxMessageSize)
  {channel : List WriteMessage} {down : Stream} {w : Wire Stream} {events : List ServerEvent}
  (hfollows : Follows site line down)

include hadmits hlimits hsound hlimit hfollows

theorem wire_simulated
    (hrun : action.run (site.threads limit) (connection k) { line.wire with channel } = some (w, events)) :
    ∃ action' : Action, ∃ v, action'.run (network site link limits) (connection k)
        { line.wire with channel, down } = some (v, events) ∧
      Tracks site { line with wire := { w with channel := [] } } w.channel v := by
  have hnet : side action = .server ∨ side action = .pane →
      ((network site link limits).link (connection k)).receive = (byteStream limit).receive := by
    intro hside
    obtain ⟨hello, connId, haccept, rfl⟩ := serving_of_limit hsound hside hlimit
    show (link (limits (connection k))).receive = _
    rw [hadmits.receive, hlimits hello (congrArg Accept.hello haccept)]
  have hsend : ∀ frame q, ((network site link limits).link (connection k)).send frame q =
      (byteStream limit).send frame q := fun frame q => congrFun (congrFun (hadmits.send _) frame) q
  -- what the server writes goes out behind the decision
  have hwrite : ∀ {frame q}, side action = .server →
      (byteStream limit).send frame line.wire.down = some q →
      ((network site link limits).link (connection k)).send frame down =
          some ⟨frameBytes frame.1 frame.2, down.transit⟩ ∧
        ∀ {w : Wire Stream}, w.down = q →
          Follows site { line with wire := w } ⟨frameBytes frame.1 frame.2, down.transit⟩ := by
    intro frame q hside hsent
    obtain ⟨hello, connId, haccept, -⟩ := limit_server hside hlimit
    obtain ⟨hidle, hservice, rfl⟩ := send_byteStream hsent
    rw [hsend, send_idle (hfollows.idle hidle) hservice]
    exact ⟨rfl, hfollows.send (by simp [haccept, Accept.decision]) hidle⟩
  -- a client that reads has nothing of the handshake before it
  have hpane : action = .paneRead → ∃ v, Action.run (network site link limits) (connection k)
      { line.wire with channel, down } .paneRead = some (v, events) ∧
        Tracks site { line with wire := { w with channel := [] } } w.channel v := by
    rintro rfl
    obtain ⟨welcome, hclient, -⟩ := limit_pane rfl hlimit
    have hdown : line.wire.down = down := by simpa only [Follows, hclient] using hfollows
    subst hdown
    refine ⟨w, Eq.trans ?_ hrun, w.down, rfl, by simp only [Follows, hclient]⟩
    apply paneRead_congr
    · rfl
    · exact hnet (.inr rfl)
  cases move_of_run hrun with
  | greet bytes down' hphase hbytes hsent =>
    obtain ⟨hsent', hfollows'⟩ := hwrite rfl hsent
    exact ⟨.greet, _, run_of_move (.greet bytes _ hphase hbytes hsent') (by simp), _, rfl, hfollows' rfl⟩
  | register registered hphase =>
    exact ⟨_, _, run_of_move (.register registered hphase) (by simp), _, rfl, hfollows.beside rfl⟩
  | send frame up hsent =>
    exact ⟨_, _, run_of_move (.send frame up ((hsend frame _).trans hsent)) (by simp), _, rfl,
      hfollows.beside rfl⟩
  | driftUp n =>
    obtain ⟨m, hm⟩ := hadmits.drift (limits (connection k)) n
    refine ⟨.driftUp m, _, rfl, _, ?_, hfollows.beside rfl⟩
    show { line.wire with up := (link (limits (connection k))).drift m line.wire.up, channel, down } = _
    rw [hm]
    rfl
  | read frame up hphase hreceive =>
    have hreceive' := (congrFun (hnet (.inl rfl)) _).trans hreceive
    exact ⟨_, _, run_of_move (.read frame up hphase hreceive') (by simp), _, rfl, hfollows.beside rfl⟩
  | broken up hphase hreceive =>
    have hreceive' := (congrFun (hnet (.inl rfl)) _).trans hreceive
    exact ⟨_, _, run_of_move (.broken up hphase hreceive') (by simp), _, rfl, hfollows.beside rfl⟩
  | leave hphase => exact ⟨_, _, run_of_move (.leave hphase) (by simp), _, rfl, hfollows.beside rfl⟩
  | write frame channel' down' hphase hchannel hsent =>
    obtain ⟨hsent', hfollows'⟩ := hwrite rfl hsent
    exact ⟨_, _, run_of_move (.write frame channel' _ hphase hchannel hsent') (by simp), _, rfl,
      hfollows' rfl⟩
  | driftDown n =>
    obtain ⟨m, hm⟩ := hadmits.drift (limits (connection k)) n
    refine ⟨.driftDown m, _, rfl, _, ?_, hfollows.drift limit n rfl⟩
    show { line.wire with channel, down := (link (limits (connection k))).drift m down } = _
    rw [hm]
    rfl
  | deliver => exact ⟨.paneRead, hpane rfl⟩
  | cut => exact ⟨.paneRead, hpane rfl⟩
  | deafen => exact ⟨.paneLeave, _, rfl, _, rfl, hfollows.beside rfl⟩

end Wires

section Systems

variable {link : UInt32 → Link WriteMessage Stream} {limits : ConnectionId → UInt32}
  {net : Setting Stream} {x x' : State} {y y' : System Stream} {k : Nat}

theorem apart_of_connId (hnumbered : Numbered x) (hids : x.nextConnId ≤ 2 ^ 64)
    (hk : (x.lines i).accept.connId = some k) {j l : Nat} (hl : (x.lines j).accept.connId = some l)
    (hj : j ≠ i) : connection l ≠ connection k := by
  intro heq
  have hsame := connection_inj (Nat.lt_of_lt_of_le (hnumbered.below hl).2 hids)
    (Nat.lt_of_lt_of_le (hnumbered.below hk).2 hids) heq
  rw [hsame] at hl
  exact hj (hnumbered.distinct hl hk)

theorem apart_of_next (hnumbered : Numbered x) (hids : x.nextConnId < 2 ^ 64) {j l : Nat}
    (hl : (x.lines j).accept.connId = some l) : connection l ≠ connection x.nextConnId := by
  intro heq
  have hbelow := (hnumbered.below hl).2
  have hsame := connection_inj (Nat.lt_trans hbelow hids) hids heq
  omega

theorem Refines.update (h : Refines site net x y)
    (hown : (x.lines i).accept.connId = none ∨ (x.lines i).accept.connId = some k)
    (hapart : ∀ {j l}, (x.lines j).accept.connId = some l → j ≠ i → connection l ≠ connection k)
    (line' : Line) (hk' : line'.accept.connId = some k)
    {w : Wire Stream} (htracks : Tracks site line' (x'.channels (connection k)) w)
    (hlines : x'.lines = Function.update x.lines i line')
    (hwires : y'.wires = Function.update y.wires (connection k) w)
    (hchannels : ∀ c, c ≠ connection k → x'.channels c = x.channels c)
    (hqueue : y'.queue = x'.queue) (hpast : y'.past = x'.past) (hserver : y'.server = x'.server) :
    Refines site net x' y' where
  queue := hqueue
  past := hpast
  server := hserver
  lines := by
    intro j l hl
    rw [hlines] at hl ⊢
    by_cases hj : j = i
    · subst hj
      rw [Function.update_self] at hl ⊢
      cases hk'.symm.trans hl
      rw [hwires, Function.update_self]
      exact htracks
    · rw [Function.update_of_ne hj] at hl ⊢
      have hne := hapart hl hj
      rw [hwires, Function.update_of_ne hne, hchannels _ hne]
      exact h.lines hl
  others := by
    intro c hc
    have hne : c ≠ connection k := by
      intro heq
      refine hc i k ?_ heq.symm
      rw [hlines, Function.update_self]
      exact hk'
    rw [hwires, Function.update_of_ne hne, hchannels c hne]
    refine h.others c fun j l hl => hc j l ?_
    rw [hlines]
    by_cases hj : j = i
    · subst hj
      have hsame := hown.resolve_left (by simp [hl])
      rw [Function.update_self, hk', ← hsame, hl]
    · rw [Function.update_of_ne hj]
      exact hl

theorem Refines.early (h : Refines site net x y) (hk : (x.lines i).accept.connId = none)
    (line' : Line) (hk' : line'.accept.connId = none) (hlines : x'.lines = Function.update x.lines i line')
    (hchannels : x'.channels = x.channels) (hqueue : x'.queue = x.queue) (hpast : x'.past = x.past)
    (hserver : x'.server = x.server) : Refines site net x' y := by
  have hsame : ∀ j, (x'.lines j).accept.connId = (x.lines j).accept.connId := by
    intro j
    rw [hlines]
    by_cases hj : j = i
    · subst hj
      rw [Function.update_self, hk, hk']
    · rw [Function.update_of_ne hj]
  refine ⟨h.queue.trans hqueue.symm, h.past.trans hpast.symm, h.server.trans hserver.symm, ?_, ?_⟩
  · intro j l hl
    rw [hsame] at hl
    have hj : j ≠ i := by
      rintro rfl
      cases hk.symm.trans hl
    rw [hlines, Function.update_of_ne hj, hchannels]
    exact h.lines hl
  · intro c hc
    rw [hchannels]
    refine h.others c fun j l hl => hc j l ?_
    rw [hsame]
    exact hl

theorem Refines.act (h : Refines site (network site link limits) x y) {order : HashOrder}
    (hact : x.act site order = some x') :
    ∃ y', y.act (network site link limits) order = some y' ∧
      Refines site (network site link limits) x' y' := by
  unfold State.act at hact
  split at hact
  · cases hact
  · next event queue hqueue =>
    cases hact
    have hy := h.queue.trans hqueue
    refine ⟨_, by rw [System.act, hy], ⟨rfl, ?_, ?_, ?_, ?_⟩⟩
    · rw [h.past]
    · rw [h.server]
      rfl
    · intro j l hl
      obtain ⟨down, hw, hfollows⟩ := h.lines hl
      refine ⟨down, ?_, hfollows⟩
      dsimp only
      rw [hw, h.server]
      rfl
    · intro c hc
      dsimp only
      rw [h.others c hc, h.server]
      rfl

theorem leak (site : Site) (hleaky : Leaky link) (limits : ConnectionId → UInt32)
    (y : System Stream) (bytes : Bytes) (c : ConnectionId) :
    ∃ y', (wires (network site link limits)).Next (fun _ _ => True) y y' ∧
      y'.wires = Function.update y.wires c
        { y.wires c with up := { (y.wires c).up with transit := (y.wires c).up.transit ++ bytes } } ∧
      y'.queue = y.queue ∧ y'.past = y.past ∧ y'.server = y.server := by
  obtain ⟨m, hm⟩ := hleaky (limits c) bytes
  refine ⟨_, ⟨.wire c (.driftUp m), trivial, rfl⟩, ?_, List.append_nil _, rfl, rfl⟩
  show Function.update y.wires c { y.wires c with up := (link (limits c)).drift m (y.wires c).up } = _
  rw [hm]

theorem tracks_took (hsane : Sane site) (hsound : Sound site i line)
    (hk : line.accept.connId = some k) {next next' : Nat} {step : Step}
    (htook : Took site i line next step line' next') {channel : List WriteMessage} {v : Wire Stream}
    (htracks : Tracks site line channel v) :
    Tracks site line' channel v ∨ ∃ bytes, site.hellos i = none ∧
      Tracks site line' channel { v with up := { v.up with transit := v.up.transit ++ bytes } } := by
  obtain ⟨down, rfl, hfollows⟩ := htracks
  cases htook with
  | speechless _ _ hclient hhello | hello _ _ hclient hhello =>
    rw [(hsound.silent hhello hclient).1] at hk
    cases hk
  | decision frame down' hclient hread =>
    exact .inl ⟨down, rfl, hfollows.decision hsane hsound hclient hread⟩
  | clientFails error e hclient => exact .inl ⟨down, rfl, hfollows.fail _⟩
  | arrive bytes hhello => exact .inr ⟨bytes, hhello, down, rfl, hfollows.beside rfl⟩
  | unread _ _ _ _ haccept | read _ _ _ _ haccept | rejectPanics _ _ haccept | reject _ _ haccept
  | refuse _ haccept | allocate _ haccept => cases (congrArg Accept.connId haccept).symm.trans hk
  | welcomePanics hello connId text haccept hcbor => exact .inl ⟨down, rfl, hfollows⟩
  | welcome hello connId bytes haccept hcbor hidle =>
    have hundecided : line.accept.decision = none := by
      rw [haccept]
      rfl
    refine .inl ⟨down, rfl, ?_⟩
    have hquiet := hfollows.idle hidle
    unfold Follows at hfollows ⊢
    dsimp only
    split at hfollows
    · next w hclient => cases (hsound.connected hclient).symm.trans hundecided
    · exact .inr hquiet
    · rw [hundecided] at hfollows
      obtain ⟨hstill, rfl⟩ := hfollows
      refine ⟨bytes, hcbor, .inr ⟨rfl, ?_⟩⟩
      rw [hstill]
      rfl
  | acceptFails error e => exact .inl ⟨down, rfl, hfollows⟩

theorem tracks_allocate (limits : ConnectionId → UInt32) (hadmits : Admits link)
    (hsound : Sound site i line) {hello : Handshake.Hello}
    (haccept : line.accept = .checking hello) (c : ConnectionId) (channel : List WriteMessage)
    (next : Nat) :
    Tracks site { line with accept := .welcoming hello next } channel
      { Wire.new (network site link limits) c with up := line.wire.up, channel } := by
  have hundecided : line.accept.decision = none := by
    rw [haccept]
    rfl
  have hfresh := hsound.fresh (by rw [haccept]; rfl)
  have hempty := hadmits.empty (limits c)
  refine ⟨still, ?_, follows_still (fun w hclient => ?_) (hsound.undecided hundecided) rfl⟩
  · simp only [Wire.new, network, hempty, hfresh.phase, hfresh.taken, hfresh.wrote, hfresh.delivered,
      hfresh.deaf]
  · cases (hsound.connected hclient).symm.trans hundecided

theorem handshake_simulated (hadmits : Admits link) (hleaky : site.hellos i = none → Leaky link)
    (hsane : Sane site) (hsound : Sound site i (x.lines i)) (hnumbered : Numbered x)
    (h : Refines site (network site link limits) x y) {next : Nat} {step : Step}
    (htook : Took site i (x.lines i) x.nextConnId step line' next) (hids : next ≤ 2 ^ 64) :
    ∃ y', Relation.ReflTransGen ((wires (network site link limits)).Next fun _ _ => True) y y' ∧
      Refines site (network site link limits)
        { x with lines := Function.update x.lines i line', nextConnId := next } y' := by
  obtain ⟨hsame, rfl, -⟩ | ⟨hello, haccept, rfl, rfl⟩ := connId_took htook
  · cases hk : (x.lines i).accept.connId with
    | none => exact ⟨y, .refl, h.early hk line' (hsame.trans hk) rfl rfl rfl rfl rfl⟩
    | some k =>
      have hapart := fun {j l} => apart_of_connId (j := j) (l := l) hnumbered hids hk
      obtain htracks | ⟨bytes, hstranger, htracks⟩ := tracks_took hsane hsound hk htook (h.lines hk)
      · exact ⟨y, .refl, h.update (.inr hk) hapart line' (hsame.trans hk) htracks rfl
          (Function.update_eq_self _ _).symm (fun _ _ => rfl) h.queue h.past h.server⟩
      · obtain ⟨y', hnext, hwires, hqueue, hpast, hserver⟩ :=
          leak site (hleaky hstranger) limits y bytes (connection k)
        exact ⟨y', .single hnext, h.update (.inr hk) hapart line' (hsame.trans hk) htracks rfl hwires
          (fun _ _ => rfl) (hqueue.trans h.queue) (hpast.trans h.past) (hserver.trans h.server)⟩
  · have hfree := h.others (connection x.nextConnId) fun j l hl => apart_of_next hnumbered hids hl
    have hown := congrArg Accept.connId haccept
    have hapart : ∀ {j l}, (x.lines j).accept.connId = some l → j ≠ i →
        connection l ≠ connection x.nextConnId := fun hl _ => apart_of_next hnumbered hids hl
    have htracks := tracks_allocate limits hadmits hsound haccept
      (connection x.nextConnId) (x.channels (connection x.nextConnId)) x.nextConnId
    cases hhello : site.hellos i with
    | some own =>
      refine ⟨y, .refl, h.update (.inl hown) hapart _ rfl htracks rfl ?_ (fun _ _ => rfl) h.queue h.past
        h.server⟩
      rw [hsound.asked hhello haccept, ← hadmits.empty (limits (connection x.nextConnId))]
      refine Eq.trans (Function.update_eq_self (connection x.nextConnId) _).symm ?_
      rw [hfree]
      rfl
    | none =>
      -- what has arrived before is what leaks in
      obtain ⟨y', hnext, hwires, hqueue, hpast, hserver⟩ := leak site (hleaky hhello) limits y
        (x.lines i).wire.up.transit (connection x.nextConnId)
      refine ⟨y', .single hnext, h.update (.inl hown) hapart _ rfl htracks rfl ?_ (fun _ _ => rfl)
        (hqueue.trans h.queue) (hpast.trans h.past) (hserver.trans h.server)⟩
      have hunsent := (hsound.stranger hhello).2
      have hup : ∀ q : Stream, q.unsent = [] → (⟨[], [] ++ q.transit⟩ : Stream) = q := by
        rintro ⟨unsent, transit⟩ rfl
        rfl
      rw [hwires, hfree]
      simp only [Wire.new, network, hadmits.empty, still, hup _ hunsent]

theorem wires_simulated (hadmits : Admits link) (hsound : Sound site i (x.lines i))
    (hnumbered : Numbered x) (hnegotiated : Negotiated limits x)
    (h : Refines site (network site link limits) x y) {action : Action} {limit : UInt32}
    {w : Wire Stream} {events : List ServerEvent} (hlimit : (x.lines i).limit action = some limit)
    (hrun : action.run (site.threads limit) (x.lines i).conn
      { (x.lines i).wire with channel := x.channels (x.lines i).conn } = some (w, events)) :
    ∃ y', Relation.ReflTransGen ((wires (network site link limits)).Next fun _ _ => True) y y' ∧
      Refines site (network site link limits) { x with
        lines := Function.update x.lines i { x.lines i with wire := { w with channel := [] } }
        channels := Function.update x.channels (x.lines i).conn w.channel
        queue := x.queue ++ events } y' := by
  cases hk : (x.lines i).accept.connId with
  | some k =>
    rw [conn_eq hk] at hrun ⊢
    obtain ⟨down, hv, hfollows⟩ := h.lines hk
    obtain ⟨action', v, hrun', htracks⟩ := wire_simulated hadmits hsound hlimit
      (fun hello hhello => hnegotiated.limits hk hhello) hfollows hrun
    rw [← hv] at hrun'
    refine ⟨{ y with wires := Function.update y.wires (connection k) v, queue := y.queue ++ events },
      .single ⟨.wire (connection k) action', trivial, ?_⟩,
      h.update (.inr hk) (apart_of_connId hnumbered hnegotiated.ids hk)
        { x.lines i with wire := { w with channel := [] } } hk ?_ rfl rfl ?_ ?_ h.past h.server⟩
    · show (y.step (network site link limits) (.wire (connection k) action')) = _
      rw [System.step, hrun']
      rfl
    · dsimp only
      rw [Function.update_self]
      exact htracks
    · exact fun c hc => Function.update_of_ne hc _ _
    · dsimp only
      rw [h.queue]
  | none =>
    -- only bytes on their way move before there is an id
    have hearly : ¬ (side action = .server ∨ side action = .pane) := fun hside => by
      obtain ⟨hello, connId, haccept, -⟩ := serving_of_limit hsound hside hlimit
      cases (congrArg Accept.connId haccept).symm.trans hk
    have hidle : w.channel = x.channels (x.lines i).conn ∧ events = [] := by
      cases move_of_run hrun with
      | driftUp n => exact ⟨rfl, rfl⟩
      | driftDown n => exact ⟨rfl, rfl⟩
      | _ => exact absurd (by simp [side]) hearly
    obtain ⟨hchannel, rfl⟩ := hidle
    refine ⟨y, .refl, h.early hk { x.lines i with wire := { w with channel := [] } } hk rfl
      ?_ (List.append_nil _) rfl rfl⟩
    dsimp only
    rw [hchannel, Function.update_eq_self]

theorem Negotiated.back {label : Accepting.Label} (hstep : x.step site label = some x')
    (h : Negotiated limits x') : Negotiated limits x := by
  -- the id and the Hello of every line are still there
  suffices hkept : x.nextConnId ≤ x'.nextConnId ∧
      ∀ {j k}, (x.lines j).accept.connId = some k → (x'.lines j).accept.connId = some k ∧
        (x'.lines j).accept.hello = (x.lines j).accept.hello by
    refine ⟨hkept.1.trans h.ids, fun hk hhello => ?_⟩
    obtain ⟨hk', hhello'⟩ := hkept.2 hk
    exact h.limits hk' (hhello'.trans hhello)
  obtain ⟨i, step, line, next, -, htook, rfl⟩ | ⟨i, action, limit, w, events, -, -, -, rfl⟩ |
    ⟨order, -, hact⟩ := step_cases hstep
  · refine ⟨?_, fun {j k} hk => ?_⟩
    · obtain ⟨-, rfl, -⟩ | ⟨hello, -, -, rfl⟩ := connId_took htook
      · exact Nat.le_refl _
      · exact Nat.le_succ _
    · by_cases hj : j = i
      · subst hj
        simp only [Function.update_self]
        obtain ⟨hsame, -, hhello⟩ | ⟨hello, haccept, -, -⟩ := connId_took htook
        · exact ⟨hsame.trans hk, hhello (by simp [hk])⟩
        · cases (congrArg Accept.connId haccept).symm.trans hk
      · dsimp only
        rw [Function.update_of_ne hj]
        exact ⟨hk, rfl⟩
  · refine ⟨Nat.le_refl _, fun {j k} hk => ?_⟩
    by_cases hj : j = i
    · subst hj
      dsimp only
      rw [Function.update_self]
      exact ⟨hk, rfl⟩
    · dsimp only
      rw [Function.update_of_ne hj]
      exact ⟨hk, rfl⟩
  · obtain ⟨hlines, hid⟩ := act_eq hact
    rw [hlines, hid]
    exact ⟨Nat.le_refl _, fun hk => ⟨hk, rfl⟩⟩

theorem simulation (limits : ConnectionId → UInt32) (hadmits : Admits link)
    (hleaky : ∀ i, site.hellos i = none → Leaky link) (hsane : Sane site) :
    Machine.Simulation (machine site) (wires (network site link limits)) (fun _ _ => True)
      (fun _ _ => True) (Negotiated limits) (Refines site (network site link limits)) where
  start := by
    rintro x rfl
    exact ⟨_, rfl, rfl, rfl, rfl, fun hk => (by cases hk), fun _ _ => rfl⟩
  back := Negotiated.back
  step := by
    intro x x' y label hx h hnegotiated _ hstep
    have hnumbered := (numbered_reachable hx).1
    have hbefore := Negotiated.back hstep hnegotiated
    obtain ⟨i, step, line, next, -, htook, rfl⟩ | ⟨i, action, limit, w, events, -, hlimit, hrun, rfl⟩ |
      ⟨order, -, hact⟩ := step_cases hstep
    · exact handshake_simulated hadmits (hleaky i) hsane (sound_reachable hsane hx i) hnumbered h htook
        hnegotiated.ids
    · exact wires_simulated hadmits (sound_reachable hsane hx i) hnumbered hbefore h hlimit hrun
    · obtain ⟨y', hy', hrefines⟩ := h.act hact
      exact ⟨y', .single ⟨.act order, trivial, hy'⟩, hrefines⟩

end Systems

end Pane.AcceptRefinement
