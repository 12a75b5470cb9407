import Pane.SourceRuns

namespace Pane.WritePath

open Pane.Messages Pane.Framing Pane.NonBlockingFraming Pane.ConnectionSource Pane.WrittenBytes
open Pane.SourceRuns

/-- How a frame gets into the write buffer. -/
inductive Origin
  | channel
  | direct
deriving DecidableEq

def framesFrom (origin : Origin) (frames : List (Origin × WriteMessage)) : List WriteMessage :=
  (frames.filter (fun f => f.1 = origin)).map Prod.snd

theorem framesFrom_append (origin : Origin) (frames more : List (Origin × WriteMessage)) :
    framesFrom origin (frames ++ more) = framesFrom origin frames ++ framesFrom origin more := by
  rw [framesFrom, List.filter_append, List.map_append]
  rfl

theorem framesFrom_channel (moved : List WriteMessage) :
    framesFrom .channel (moved.map (fun f => (.channel, f))) = moved := by
  simp [framesFrom, List.filter_map, Function.comp_def]

theorem framesFrom_direct (moved : List WriteMessage) :
    framesFrom .direct (moved.map (fun f => (.channel, f))) = [] := by
  simp [framesFrom, List.filter_map, Function.comp_def]

/-- Some frames go from the channel into the buffer, each at a moment when the buffer
is below the mark. -/
structure Pulls (source source' : Source) (moved : List WriteMessage) : Prop where
  channel : source.writeRx = moved ++ source'.writeRx
  pending : pending source'.writer = pending source.writer ++ encodings moved
  placed : Placed source'.writer
  below : ∀ front msg, front ++ [msg] <+: moved →
    source.writer.pendingBytes + (encodings front).length < writeHighwaterBytes

theorem Pulls.none {source : Source} (hw : Placed source.writer) : Pulls source source [] where
  channel := rfl
  pending := (List.append_nil _).symm
  placed := hw
  below front msg h := by
    have hnil := List.prefix_nil.mp h
    simp at hnil

theorem Pulls.cons {source source' : Source} {msg : WriteMessage} {rest moved : List WriteMessage}
    (hw : Placed source.writer) (hchannel : source.writeRx = msg :: rest)
    (hbelow : source.writer.pendingBytes < writeHighwaterBytes)
    (h : Pulls { source with writer := source.writer.enqueue msg.1 msg.2, writeRx := rest } source'
      moved) : Pulls source source' (msg :: moved) where
  channel := by
    have hrest : rest = moved ++ source'.writeRx := h.channel
    rw [hchannel, hrest, List.cons_append]
  pending := by
    have hpending := h.pending
    rw [pending_enqueue hw, List.append_assoc] at hpending
    exact hpending
  placed := h.placed
  below front next hfront := by
    cases front with
    | nil => exact hbelow
    | cons first front =>
      rw [List.cons_append, List.cons_prefix_cons] at hfront
      obtain ⟨rfl, hfront⟩ := hfront
      have hlater := h.below front next hfront
      rw [pendingBytes_enqueue hw] at hlater
      show _ + (encoding first ++ encodings front).length < _
      rw [List.length_append]
      omega

theorem pulls_drain {writer : FrameWriter} (msgs : List WriteMessage) (hw : Placed writer)
    (source : Source) : ∃ moved,
    Pulls { source with writer, writeRx := msgs }
      { source with writer := (drain writer msgs).1, writeRx := (drain writer msgs).2 } moved := by
  induction msgs generalizing writer with
  | nil => exact ⟨[], .none hw⟩
  | cons msg msgs ih =>
    by_cases hfull : writeHighwaterBytes ≤ writer.pendingBytes
    · rw [drain, if_pos hfull]
      exact ⟨[], .none hw⟩
    · obtain ⟨moved, hmoved⟩ := ih (placed_enqueue hw msg)
      rw [drain, if_neg hfull]
      exact ⟨msg :: moved, Pulls.cons hw rfl (Nat.lt_of_not_le hfull) hmoved⟩

theorem pulls_drainWriteChannel {source : Source} (hw : Placed source.writer) :
    ∃ moved, Pulls source source.drainWriteChannel moved :=
  pulls_drain source.writeRx hw source

theorem isEmpty_iff_pendingBytes {w : FrameWriter} : w.isEmpty = true ↔ w.pendingBytes = 0 := by
  rw [FrameWriter.isEmpty, decide_eq_true_eq, FrameWriter.pendingBytes, Nat.sub_eq_zero_iff_le]

theorem pulls_peek {source : Source} (hw : Placed source.writer) :
    ∃ moved, Pulls source (Registered.peek source) moved := by
  obtain ⟨-, hpeek⟩ | ⟨msg, msgs, hempty, hchannel, hpeek⟩ := Registered.peek_cases source
  · rw [hpeek]
    exact ⟨[], .none hw⟩
  · have hbelow : source.writer.pendingBytes < writeHighwaterBytes := by
      rw [isEmpty_iff_pendingBytes.mp hempty]
      decide
    rw [hpeek]
    exact ⟨[msg], Pulls.cons hw hchannel hbelow (.none (placed_enqueue hw msg))⟩

theorem write_writes {source : Source} (hw : Placed source.writer) (ready : Readiness) :
    (source.write ready).2.writeRx = source.writeRx ∧ Placed (source.write ready).2.writer ∧
      (if ready.writable then accepted source.writer ready.sink else []) ++
        pending (source.write ready).2.writer = pending source.writer := by
  have hwriter : (source.write ready).2.writeRx = source.writeRx ∧ (source.write ready).2.writer =
      (if ready.writable then source.writer.tryFlush ready.sink else (.ok false, source.writer)).2 := by
    obtain ⟨e, -, hwrite⟩ | ⟨drained, action, interest, -, -, hwrite⟩ := source.write_cases ready
    · rw [hwrite]
      exact ⟨rfl, rfl⟩
    · rw [hwrite]
      exact ⟨rfl, rfl⟩
  refine ⟨hwriter.1, ?_⟩
  rw [hwriter.2]
  cases ready.writable with
  | false => exact ⟨hw, rfl⟩
  | true => exact ⟨(flushes hw ready.sink).placed, (flushes hw ready.sink).conserved⟩

theorem processEvents_writes (pc : Postcard) {source : Source} (hw : Placed source.writer)
    (ready : Readiness) : ∃ moved drained, Pulls source drained moved ∧
      (source.processEvents pc ready).source.writeRx = drained.writeRx ∧
      Placed (source.processEvents pc ready).source.writer ∧
      Session.flushed pc source ready ++ pending (source.processEvents pc ready).source.writer =
        pending drained.writer := by
  obtain ⟨moved, hpulls⟩ := pulls_drainWriteChannel hw
  refine ⟨moved, source.drainWriteChannel, hpulls, ?_⟩
  let read : Source := { source.drainWriteChannel with
    reader := (source.drainWriteChannel.read pc ready).reader }
  have hplaced : Placed read.writer := hpulls.placed
  have hwritten := write_writes hplaced ready
  obtain ⟨loss, hloss, hevents⟩ | ⟨e, hloss, -, hevents⟩ | ⟨action, hloss, -, hevents⟩ :=
    source.processEvents_cases pc ready
  · rw [hevents, Session.flushed, hloss]
    exact ⟨rfl, hpulls.placed, rfl⟩
  · rw [hevents, Session.flushed, hloss]
    exact hwritten
  · rw [hevents, Session.flushed, hloss]
    exact hwritten

/-- The frames that got into the buffer: their bytes were written or are pending, the
frames of the channel are there in order up to those that still wait, and so are the
frames that were enqueued directly. -/
structure Carried (x : Session) (frames : List (Origin × WriteMessage)) : Prop where
  placed : Placed x.source.writer
  bytes : x.written ++ pending x.source.writer = encodings (frames.map Prod.snd)
  channel : framesFrom .channel frames ++ x.source.writeRx = x.sent
  direct : framesFrom .direct frames = x.enqueued

theorem carried_new (maxMessageSize : UInt32) (socket : List Delivery) :
    Carried (Session.new maxMessageSize socket) [] :=
  ⟨placed_new, rfl, rfl, rfl⟩

variable {pc : Postcard} {x : Session} {frames : List (Origin × WriteMessage)}

theorem Carried.pull {y : Session} {drained : Source} {moved : List WriteMessage} {flushed : Bytes}
    (h : Carried x frames) (hpulls : Pulls x.source drained moved)
    (hchannel : y.source.writeRx = drained.writeRx) (hplaced : Placed y.source.writer)
    (hwritten : y.written = x.written ++ flushed)
    (hflushed : flushed ++ pending y.source.writer = pending drained.writer)
    (hsent : y.sent = x.sent) (henqueued : y.enqueued = x.enqueued) :
    Carried y (frames ++ moved.map (fun f => (.channel, f))) where
  placed := hplaced
  bytes := by
    have hmap : (moved.map (fun f => (Origin.channel, f))).map Prod.snd = moved := by
      simp [Function.comp_def]
    rw [hwritten, List.append_assoc, hflushed, hpulls.pending, ← List.append_assoc, h.bytes,
      List.map_append, hmap, encodings_append]
  channel := by
    rw [framesFrom_append, framesFrom_channel, List.append_assoc, hchannel, ← hpulls.channel, hsent,
      h.channel]
  direct := by
    rw [framesFrom_append, framesFrom_direct, List.append_nil, henqueued, h.direct]

/-- What a step moves out of the channel, it moves while the buffer is below the mark. -/
structure Moves (x y : Session) (moved : List WriteMessage) : Prop where
  channel : ∃ more, y.sent = x.sent ++ more ∧
    x.source.writeRx ++ more = moved ++ y.source.writeRx
  below : ∀ front msg, front ++ [msg] <+: moved →
    (pending x.source.writer).length + (encodings front).length < writeHighwaterBytes

theorem Moves.none {y : Session} (hsent : ∃ more, y.sent = x.sent ++ more ∧
    x.source.writeRx ++ more = y.source.writeRx) : Moves x y [] where
  channel := hsent
  below front msg h := by
    have hnil := List.prefix_nil.mp h
    simp at hnil

theorem Moves.pull {y : Session} {drained : Source} {moved : List WriteMessage}
    (hpulls : Pulls x.source drained moved) (hchannel : y.source.writeRx = drained.writeRx)
    (hsent : y.sent = x.sent) : Moves x y moved where
  channel := ⟨[], by rw [hsent, List.append_nil], by rw [List.append_nil, hchannel, hpulls.channel]⟩
  below front msg h := by
    rw [length_pending]
    exact hpulls.below front msg h

theorem carried_step (h : Carried x frames) (hremoved : x.removed = false) (happening : Happening) :
    ∃ moved frames', Moves x (x.step pc happening) moved ∧ Carried (x.step pc happening) frames' := by
  rw [Session.step_live hremoved]
  cases happening with
  | send msg =>
    refine ⟨[], frames, .none ⟨[msg], rfl, rfl⟩, h.placed, h.bytes, ?_, h.direct⟩
    show framesFrom .channel frames ++ (x.source.writeRx ++ [msg]) = x.sent ++ [msg]
    rw [← List.append_assoc, h.channel]
  | enqueue msg =>
    refine ⟨[], frames ++ [(.direct, msg)], .none ⟨[], (List.append_nil _).symm, List.append_nil _⟩,
      placed_enqueue h.placed msg, ?_, ?_, ?_⟩
    · show x.written ++ pending (x.source.writer.enqueue msg.1 msg.2) = _
      rw [pending_enqueue h.placed, ← List.append_assoc, h.bytes, List.map_append, encodings_append]
      exact congrArg _ (encodings_singleton msg).symm
    · show framesFrom .channel (frames ++ [(.direct, msg)]) ++ x.source.writeRx = x.sent
      rw [framesFrom_append, ← h.channel]
      exact congrArg (· ++ _) (List.append_nil _)
    · rw [framesFrom_append, h.direct]
      rfl
  | processEvents token readable writable sink =>
    obtain ⟨moved, drained, hpulls, hchannel, hplaced, hflushed⟩ :=
      processEvents_writes pc h.placed
        ⟨readable, writable, (if readable then upToBlock x.socket else ([], x.socket)).1, sink⟩
    exact ⟨moved, _, .pull hpulls hchannel rfl,
      h.pull hpulls hchannel hplaced rfl hflushed rfl rfl⟩
  | beforeSleep =>
    obtain ⟨moved, hpulls⟩ := pulls_peek h.placed
    exact ⟨moved, _, .pull hpulls rfl rfl,
      h.pull hpulls rfl hpulls.placed (List.append_nil _).symm rfl rfl rfl⟩

theorem carried_run (maxMessageSize : UInt32) (socket : List Delivery)
    (happenings : List Happening) :
    ∃ frames, Carried (Session.run pc maxMessageSize socket happenings) frames := by
  refine Session.run_induction (P := fun x => ∃ frames, Carried x frames)
    ⟨[], carried_new maxMessageSize socket⟩ ?_ happenings
  rintro x happening ⟨frames, h⟩ hremoved
  obtain ⟨-, frames', -, h'⟩ := carried_step h hremoved happening
  exact ⟨frames', h'⟩

/-- At every moment, what the socket took and what is pending are the encodings of
whole frames, among which the frames of the channel are those that were sent up to
those that still wait, in this order; and every step that moves frames out of the
channel finds fewer bytes pending than the mark, for each of these frames. -/
theorem write_path_in_order (pc : Postcard) (maxMessageSize : UInt32) (socket : List Delivery)
    (happenings : List Happening) :
    let x := Session.run pc maxMessageSize socket happenings
    (∃ frames : List (Origin × WriteMessage),
      x.written ++ pending x.source.writer = encodings (frames.map Prod.snd) ∧
      framesFrom .channel frames ++ x.source.writeRx = x.sent ∧
      framesFrom .direct frames = x.enqueued) ∧
    ∀ happening, ∃ moved, Moves x (x.step pc happening) moved := by
  intro x
  obtain ⟨frames, h⟩ : ∃ frames, Carried x frames := carried_run maxMessageSize socket happenings
  refine ⟨⟨frames, h.bytes, h.channel, h.direct⟩, fun happening => ?_⟩
  cases hremoved : x.removed with
  | false =>
    obtain ⟨moved, -, hmoves, -⟩ := carried_step h hremoved happening
    exact ⟨moved, hmoves⟩
  | true =>
    have hnone : Moves x x [] := .none ⟨[], (List.append_nil _).symm, List.append_nil _⟩
    rw [Session.step_removed hremoved]
    exact ⟨[], hnone⟩

end Pane.WritePath
