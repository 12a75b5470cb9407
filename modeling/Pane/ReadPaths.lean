import Pane.DecoderAgreement
import Pane.PostcardFormat
import Pane.SourceRuns

namespace Pane.ReadPaths

open Pane.Messages Pane.Serialization Pane.Framing Pane.NonBlockingFraming Pane.DecoderAgreement
open Pane.CoreRequest Pane.ConnectionSource Pane.WrittenBytes Pane.SourceRuns Pane.PostcardFormat

/-- What the reader thread of the bridge has sent to the looper, and whether its loop
is over. -/
structure Relayed where
  messages : List LooperMessage
  exited : Bool

def Relayed.behind (first : List LooperMessage) (rest : Relayed) : Relayed :=
  { rest with messages := first ++ rest.messages }

/-- The `reader_loop` of the bridge, while the looper listens. Of the stream `bytes`
are still to come; then it ends, or the reader has to wait. -/
def readerLoop (pc : Postcard) (ended : Bool) : Nat → FrameCodec → Bytes → Relayed
  | 0, _, _ => ⟨[], false⟩
  | fuel + 1, codec, bytes => match codec.readFrame bytes with
    | (.ok (.message service payload), codec, rest) =>
      if service = 0 then match pc.controlFromBytes payload with
        | some msg => (readerLoop pc ended fuel codec rest).behind [.control msg]
        | none => ⟨[], true⟩
      else (readerLoop pc ended fuel codec rest).behind [.service service payload]
    | (.ok .abort, _, _) => ⟨[], true⟩
    | (.error e, _, _) => ⟨[], ended || decide (e ≠ .endOfStream)⟩

def relayed (pc : Postcard) (ended : Bool) (codec : FrameCodec) (bytes : Bytes) : Relayed :=
  readerLoop pc ended (bytes.length + 1) codec bytes

section Bridge

variable {pc : Postcard} {ended : Bool} {codec : FrameCodec} {bytes rest : Bytes}

theorem readerLoop_ok (hfresh : codec.poisoned = false) {frame : Frame}
    (h : codec.readFrameInner bytes = (.ok frame, rest)) (fuel : Nat) :
    readerLoop pc ended (fuel + 1) codec bytes = match classifyFrame pc frame with
      | .ok (some msg) => (readerLoop pc ended fuel codec rest).behind [msg]
      | _ => ⟨[], true⟩ := by
  have hread : codec.readFrame bytes = (.ok frame, codec, rest) := by
    rw [FrameCodec.readFrame, hfresh, h]
    rfl
  rw [readerLoop, hread]
  cases frame with
  | abort => rfl
  | message service payload =>
    dsimp only [classifyFrame]
    by_cases hservice : service = 0
    · rw [if_pos hservice, if_pos hservice]
      cases pc.controlFromBytes payload <;> rfl
    · rw [if_neg hservice, if_neg hservice]

theorem readerLoop_error (hfresh : codec.poisoned = false) {e : FrameError}
    (h : (codec.readFrameInner bytes).1 = .error e) (fuel : Nat) :
    readerLoop pc ended (fuel + 1) codec bytes = ⟨[], ended || decide (e ≠ .endOfStream)⟩ := by
  obtain ⟨rest, hread⟩ : ∃ rest, codec.readFrameInner bytes = (.error e, rest) :=
    ⟨_, Prod.ext h rfl⟩
  have hframe : codec.readFrame bytes = (.error e, { codec with poisoned := true }, rest) := by
    rw [FrameCodec.readFrame, hfresh, hread]
    rfl
  rw [readerLoop, hframe]

theorem readerLoop_enough (hfresh : codec.poisoned = false) {fuel fuel' : Nat}
    (h : bytes.length < fuel) (h' : bytes.length < fuel') :
    readerLoop pc ended fuel codec bytes = readerLoop pc ended fuel' codec bytes := by
  induction fuel generalizing fuel' bytes with
  | zero => omega
  | succ fuel ih =>
    cases fuel' with
    | zero => omega
    | succ fuel' =>
      cases hread : codec.readFrameInner bytes with
      | mk result rest =>
        cases result with
        | error e =>
          rw [readerLoop_error hfresh (congrArg Prod.fst hread),
            readerLoop_error hfresh (congrArg Prod.fst hread)]
        | ok frame =>
          have hshorter := length_readFrameInner hread
          rw [readerLoop_ok hfresh hread, readerLoop_ok hfresh hread,
            ih (show rest.length < fuel by omega) (show rest.length < fuel' by omega)]

theorem relayed_ok (hfresh : codec.poisoned = false) {frame : Frame}
    (h : codec.readFrameInner bytes = (.ok frame, rest)) :
    relayed pc ended codec bytes = match classifyFrame pc frame with
      | .ok (some msg) => (relayed pc ended codec rest).behind [msg]
      | _ => ⟨[], true⟩ := by
  have hshorter := length_readFrameInner h
  rw [relayed, readerLoop_ok hfresh h, relayed,
    readerLoop_enough hfresh hshorter (Nat.lt_succ_self rest.length)]

theorem relayed_error (hfresh : codec.poisoned = false) {e : FrameError}
    (h : (codec.readFrameInner bytes).1 = .error e) :
    relayed pc ended codec bytes = ⟨[], ended || decide (e ≠ .endOfStream)⟩ :=
  readerLoop_error hfresh h bytes.length

end Bridge

section Streams

variable {codec : FrameCodec} {bytes rest : Bytes}

theorem takeBytes_more {n : Nat} {front : Bytes} (h : takeBytes n bytes = some (front, rest))
    (more : Bytes) : takeBytes n (bytes ++ more) = some (front, rest ++ more) := by
  unfold takeBytes at h ⊢
  split at h
  · next hle =>
    cases h
    rw [if_pos (by rw [List.length_append]; omega), List.take_append_of_le_length hle,
      List.drop_append_of_le_length hle]
  · cases h

theorem readFrameInner_more {result : Except FrameError Frame}
    (h : codec.readFrameInner bytes = (result, rest)) (hresult : result ≠ .error .endOfStream)
    (more : Bytes) : codec.readFrameInner (bytes ++ more) = (result, rest ++ more) := by
  unfold FrameCodec.readFrameInner at h ⊢
  cases htake : takeBytes 4 bytes with
  | none =>
    rw [htake] at h
    exact absurd (congrArg Prod.fst h).symm hresult
  | some front =>
    obtain ⟨lenBuf, tail⟩ := front
    rw [htake] at h
    rw [takeBytes_more htake more]
    dsimp only [FrameCodec.readBody] at h ⊢
    generalize UInt32.ofNat (fromLeBytes lenBuf) = length at h ⊢
    by_cases hshort : length < 2
    · rw [if_pos hshort] at h ⊢
      cases h
      rfl
    · rw [if_neg hshort] at h ⊢
      by_cases hlong : codec.maxMessageSize < length
      · rw [if_pos hlong] at h ⊢
        cases h
        rfl
      · rw [if_neg hlong] at h ⊢
        cases hbody : takeBytes length.toNat tail with
        | none =>
          rw [hbody] at h
          exact absurd (congrArg Prod.fst h).symm hresult
        | some found =>
          rw [hbody] at h
          rw [takeBytes_more hbody more]
          cases h
          rfl

theorem waiting_incomplete {r : FrameReader} (h : Follows codec r [] bytes) :
    codec.readFrameInner bytes = (.error .endOfStream, []) := by
  have hposition := h.position
  cases hstate : r.state with
  | length =>
    simp only [Position, hstate] at hposition
    obtain ⟨hlen, hlt, hbytes⟩ := hposition
    have hshort : bytes.length < 4 := by
      rw [hbytes]
      simp [bytesOf]
      omega
    rw [FrameCodec.readFrameInner, takeBytes_short hshort]
  | body n =>
    simp only [Position, hstate] at hposition
    obtain ⟨hn, hlen, hlt, hbytes⟩ := hposition
    refine readFrameInner_cut h hn ?_ hbytes
    simp [bytesOf]
    omega

theorem follows_more {r : FrameReader} {ds : List Delivery} (h : Follows codec r [] bytes)
    (hds : Healthy ds) : Follows codec r ds (bytes ++ bytesOf ds) := by
  refine ⟨h.limit, h.permissive, h.known, hds, ?_⟩
  have hposition := h.position
  unfold Position at hposition ⊢
  cases hstate : r.state with
  | length =>
    rw [hstate] at hposition
    obtain ⟨hlen, hlt, hbytes⟩ := hposition
    exact ⟨hlen, hlt, by rw [hbytes]; simp [bytesOf]⟩
  | body n =>
    rw [hstate] at hposition
    obtain ⟨hn, hlen, hlt, hbytes⟩ := hposition
    exact ⟨hn, hlen, hlt, by rw [hbytes]; simp [bytesOf]⟩

end Streams

section Blocking

variable {r r' : FrameReader} {ds ds' : List Delivery}

theorem upToBlock_fst (ds : List Delivery) :
    (upToBlock ds).1 ++ (upToBlock ds).2 = ds ∧ (upToBlock (upToBlock ds).1).2 = [] ∧
      (.wouldBlock ∉ (upToBlock ds).1 → (upToBlock ds).2 = []) := by
  induction ds with
  | nil => exact ⟨rfl, rfl, fun _ => rfl⟩
  | cons d ds ih =>
    obtain ⟨happend, hlast, hnone⟩ := ih
    cases d with
    | wouldBlock => exact ⟨rfl, rfl, fun h => absurd List.mem_cons_self h⟩
    | _ =>
      refine ⟨congrArg (List.cons _) happend, hlast, fun h => hnone fun hmem => ?_⟩
      exact h (List.mem_cons_of_mem _ hmem)

theorem count_upToBlock (h : .wouldBlock ∈ (upToBlock ds).1) :
    (upToBlock ds).1.count .wouldBlock = 1 := by
  induction ds with
  | nil => cases h
  | cons d ds ih =>
    cases d with
    | wouldBlock => rfl
    | _ =>
      have htail : .wouldBlock ∈ (upToBlock ds).1 := by simpa [upToBlock] using h
      simpa [upToBlock] using ih htail

theorem upToBlock_putBack (left : Bytes) (ds : List Delivery) :
    (upToBlock (putBack left ds)).2 = (upToBlock ds).2 := by
  cases left <;> rfl

theorem block_mem_putBack (left : Bytes) (ds : List Delivery) :
    Delivery.wouldBlock ∈ putBack left ds ↔ .wouldBlock ∈ ds := by
  cases left with
  | nil => exact Iff.rfl
  | cons first more => simp [putBack]

/-- The deliveries that a call leaves: it stopped at the first that blocks, or that
one is still to come. -/
structure Leaves (blocked : Bool) (ds ds' : List Delivery) : Prop where
  stopped : blocked = true → ds' = (upToBlock ds).2 ∧ .wouldBlock ∈ ds
  ahead : blocked = false → (upToBlock ds').2 = (upToBlock ds).2 ∧ (.wouldBlock ∈ ds' ↔ .wouldBlock ∈ ds)

theorem Leaves.trans {blocked : Bool} {ds₁ : List Delivery} (h : Leaves false ds ds₁)
    (h' : Leaves blocked ds₁ ds') : Leaves blocked ds ds' := by
  obtain ⟨hup, hmem⟩ := h.ahead rfl
  refine ⟨fun hb => ?_, fun hb => ?_⟩
  · rw [← hup, ← hmem]
    exact h'.stopped hb
  · rw [← hup, ← hmem]
    exact h'.ahead hb

theorem Leaves.refl (ds : List Delivery) : Leaves false ds ds := ⟨nofun, fun _ => ⟨rfl, Iff.rfl⟩⟩

def isBlocked : ReadProgress → Bool
  | .wouldBlock => true
  | _ => false

theorem leaves_readInto (buf : Bytes) (filled : Nat) (ds : List Delivery) :
    Leaves (isBlocked (readInto buf filled ds).progress) ds (readInto buf filled ds).source ∧
      ((readInto buf filled ds).progress = .eof → .wouldBlock ∉ ds) := by
  induction ds generalizing buf filled with
  | nil =>
    rw [readInto]
    refine ⟨?_, fun _ => List.not_mem_nil⟩
    split <;> exact Leaves.refl []
  | cons d ds ih =>
    by_cases hlt : filled < buf.length
    · cases d with
      | wouldBlock =>
        rw [readInto, if_pos hlt]
        exact ⟨⟨fun _ => ⟨rfl, List.mem_cons_self⟩, by simp [isBlocked]⟩, by simp⟩
      | failed e =>
        rw [readInto, if_pos hlt]
        exact ⟨⟨by simp [isBlocked], fun _ => ⟨rfl, by simp⟩⟩, by simp⟩
      | interrupted =>
        have hskip : Leaves false (.interrupted :: ds) ds :=
          ⟨by simp, fun _ => ⟨rfl, by simp⟩⟩
        rw [readInto, if_pos hlt]
        obtain ⟨hleaves, heof⟩ := ih buf filled
        exact ⟨hskip.trans hleaves, fun h => by simpa using heof h⟩
      | chunk first more =>
        have hskip : Leaves false (.chunk first more :: ds) ds :=
          ⟨by simp, fun _ => ⟨rfl, by simp⟩⟩
        rw [readInto, if_pos hlt]
        dsimp only
        split
        · obtain ⟨hleaves, heof⟩ := ih (overwrite buf filled ((first :: more).take (buf.length - filled)))
            (filled + ((first :: more).take (buf.length - filled)).length)
          exact ⟨hskip.trans hleaves, fun h => by simpa using heof h⟩
        · refine ⟨hskip.trans ⟨by simp [isBlocked], fun _ => ?_⟩, by simp⟩
          exact ⟨upToBlock_putBack _ _, block_mem_putBack _ _⟩
    · unfold readInto
      rw [if_neg hlt]
      exact ⟨Leaves.refl _, by simp⟩

/-- What an answer of `try_read_frame` says about the deliveries. The end of the stream
is not found in front of a delivery that blocks. -/
def Pauses (ds : List Delivery) :
    Except FrameError (Option Frame) × FrameReader × List Delivery → Prop
  | (.ok none, _, ds') => Leaves true ds ds'
  | (.ok (some _), _, ds') => Leaves false ds ds'
  | (.error e, _, _) => e.forgetText = FrameError.endOfStream.forgetText → .wouldBlock ∉ ds

theorem Pauses.trans {ds₁ : List Delivery}
    {answer : Except FrameError (Option Frame) × FrameReader × List Delivery}
    (h : Leaves false ds ds₁) (h' : Pauses ds₁ answer) : Pauses ds answer := by
  obtain ⟨result, r, ds'⟩ := answer
  cases result with
  | error e =>
    intro hend
    rw [← (h.ahead rfl).2]
    exact h' hend
  | ok frame =>
    cases frame with
    | none => exact h.trans h'
    | some frame => exact h.trans h'

theorem pauses_takeBody {n : UInt32} (hr : r.filled ≤ r.buf.length) (hds : Healthy ds) :
    Pauses ds (r.takeBody n ds) := by
  have hfills : Fills r.buf r.filled ds (readInto r.buf r.filled ds) := fills_readInto hr
  obtain ⟨hleaves, heof⟩ := leaves_readInto r.buf r.filled ds
  unfold FrameReader.takeBody
  generalize readInto r.buf r.filled ds = got at hfills hleaves heof
  obtain ⟨progress, buf, filled, source⟩ := got
  cases progress with
  | wouldBlock => exact hleaves
  | eof => exact fun _ => heof rfl
  | error e => exact absurd rfl (hfills.error hds e)
  | complete =>
    dsimp only
    split
    · exact hleaves
    · split
      · exact nofun
      · exact hleaves

theorem pauses_takeLength (hr : r.filled ≤ r.buf.length) (hds : Healthy ds) :
    Pauses ds (r.takeLength ds) := by
  have hfills : Fills r.buf r.filled ds (readInto r.buf r.filled ds) := fills_readInto hr
  obtain ⟨hleaves, heof⟩ := leaves_readInto r.buf r.filled ds
  unfold FrameReader.takeLength
  generalize readInto r.buf r.filled ds = got at hfills hleaves heof
  obtain ⟨progress, buf, filled, source⟩ := got
  cases progress with
  | wouldBlock => exact hleaves
  | eof =>
    dsimp only
    split
    · exact fun _ => heof rfl
    · exact fun _ => heof rfl
  | error e => exact absurd rfl (hfills.error hds e)
  | complete =>
    dsimp only
    split
    · exact fun h => by cases h
    · split
      · exact fun h => by cases h
      · exact Pauses.trans hleaves (pauses_takeBody (Nat.zero_le _) (hfills.healthy hds))

theorem pauses_tryReadFrame (hr : r.filled ≤ r.buf.length) (hds : Healthy ds) :
    Pauses ds (r.tryReadFrame ds) := by
  rw [FrameReader.tryReadFrame]
  cases r.state with
  | body n => exact pauses_takeBody hr hds
  | length => exact pauses_takeLength hr hds

end Blocking

section Reading

variable {pc : Postcard} {codec : FrameCodec} {r : FrameReader} {ds : List Delivery} {bytes : Bytes}

theorem filled_le (h : Follows codec r ds bytes) : r.filled ≤ r.buf.length := by
  have hposition := h.position
  unfold Position at hposition
  cases hstate : r.state with
  | length =>
    rw [hstate] at hposition
    omega
  | body n =>
    rw [hstate] at hposition
    omega

theorem behind_behind (front back : List LooperMessage) (rest : Relayed) :
    (rest.behind back).behind front = rest.behind (front ++ back) := by
  simp [Relayed.behind]

/-- What the read path of `process_events` has in common with the bridge, whatever
comes behind the bytes that were delivered: it waits where the bridge goes on
with what is left, or both are done. -/
def Tallies (pc : Postcard) (codec : FrameCodec) (bytes : Bytes) (ds : List Delivery)
    (out : ReadOutcome) : Prop :=
  match out.loss with
  | none => .wouldBlock ∈ ds ∧ ∃ left, Follows codec out.reader [] left ∧ ∀ ended more,
      relayed pc ended codec (bytes ++ more) = (relayed pc ended codec (left ++ more)).behind out.delivered
  | some _ => ∀ ended more, (.wouldBlock ∉ ds → ended = true ∧ more = []) →
      relayed pc ended codec (bytes ++ more) = ⟨out.delivered, true⟩

theorem tallies_message {ds' : List Delivery} {frame : Frame} {msg : LooperMessage} {rest : Bytes}
    {out : ReadOutcome} (hfresh : codec.poisoned = false)
    (hread : codec.readFrameInner bytes = (.ok frame, rest))
    (hframe : classifyFrame pc frame = .ok (some msg)) (hleaves : Leaves false ds ds')
    (h : Tallies pc codec rest ds' out) :
    Tallies pc codec bytes ds { out with delivered := msg :: out.delivered } := by
  have hmem := (hleaves.ahead rfl).2
  have hstep : ∀ ended more, relayed pc ended codec (bytes ++ more) =
      (relayed pc ended codec (rest ++ more)).behind [msg] := by
    intro ended more
    rw [relayed_ok hfresh (readFrameInner_more hread nofun more), hframe]
  unfold Tallies at h ⊢
  cases hloss : out.loss with
  | none =>
    rw [hloss] at h
    obtain ⟨hblock, left, hfollows, hrest⟩ := h
    refine ⟨hmem.mp hblock, left, hfollows, fun ended more => ?_⟩
    rw [hstep, hrest, behind_behind]
    rfl
  | some loss =>
    rw [hloss] at h
    intro ended more hend
    rw [hstep, h ended more fun hnone => hend fun hin => hnone (hmem.mpr hin)]
    rfl

theorem tallies_readFrames (hfresh : codec.poisoned = false) (h : Follows codec r ds bytes)
    {calls : Nat} (hcalls : size ds < calls) (hlast : (upToBlock ds).2 = []) :
    Tallies pc codec bytes ds (readFrames pc calls r ds) := by
  induction calls generalizing r ds bytes with
  | zero => omega
  | succ calls ih =>
    have hanswers := answers_tryReadFrame h
    have hpauses := pauses_tryReadFrame (filled_le h) h.healthy
    unfold readFrames
    generalize r.tryReadFrame ds = answer at hanswers hpauses
    obtain ⟨result, r', ds'⟩ := answer
    cases result with
    | error e =>
      obtain ⟨e', rest, hread, htext, -⟩ := hanswers
      intro ended more hend
      by_cases he : e' = .endOfStream
      · -- the bytes ran out: nothing blocks ahead, so this is the end of the stream
        obtain ⟨rfl, rfl⟩ := hend (hpauses (by rw [htext, he]))
        rw [List.append_nil, relayed_error hfresh (congrArg Prod.fst hread)]
        rfl
      · have hne : Except.error e' ≠ (Except.error FrameError.endOfStream : Except FrameError Frame) :=
          fun heq => he (Except.error.inj heq)
        have hmore := readFrameInner_more hread hne more
        rw [relayed_error hfresh (congrArg Prod.fst hmore), decide_eq_true he, Bool.or_true]
    | ok frame =>
      cases frame with
      | none =>
        obtain ⟨hfollows, -⟩ := hanswers
        obtain ⟨hds', hblock⟩ := Leaves.stopped hpauses rfl
        obtain rfl : ds' = [] := hds'.trans hlast
        exact ⟨hblock, bytes, hfollows, fun ended more => rfl⟩
      | some frame =>
        obtain ⟨rest, hread, hfollows, hless⟩ := hanswers
        have hleaves : Leaves false ds ds' := hpauses
        dsimp only
        cases hframe : classifyFrame pc frame with
        | error text =>
          intro ended more _
          rw [relayed_ok hfresh (readFrameInner_more hread nofun more), hframe]
        | ok msg =>
          cases msg with
          | none =>
            intro ended more _
            rw [relayed_ok hfresh (readFrameInner_more hread nofun more), hframe]
          | some msg =>
            have hlast' : (upToBlock ds').2 = [] := (hleaves.ahead rfl).1.trans hlast
            exact tallies_message hfresh hread hframe hleaves (ih hfollows (by omega) hlast')

end Reading

section Sinks

def isFatal : SinkAnswer → Bool
  | .wrote 0 => true
  | .failed _ => true
  | _ => false

theorem tryFlush_ok {sink : List SinkAnswer} (h : ∀ answer ∈ sink, isFatal answer = false)
    (w : FrameWriter) : ∃ drained, (w.tryFlush sink).1 = .ok drained := by
  induction sink generalizing w with
  | nil =>
    rw [FrameWriter.tryFlush]
    split
    · exact ⟨false, rfl⟩
    · exact ⟨true, rfl⟩
  | cons answer sink ih =>
    have hrest : ∀ answer ∈ sink, isFatal answer = false := fun a ha => h a (List.mem_cons_of_mem _ ha)
    by_cases hlt : w.flushPos < w.buf.length
    · cases answer with
      | wouldBlock => exact ⟨false, by rw [FrameWriter.tryFlush, if_pos hlt]⟩
      | failed e => exact absurd (h _ List.mem_cons_self) (by simp [isFatal])
      | interrupted =>
        rw [FrameWriter.tryFlush, if_pos hlt]
        exact ih hrest w
      | wrote n =>
        cases n with
        | zero => exact absurd (h _ List.mem_cons_self) (by simp [isFatal])
        | succ n =>
          rw [FrameWriter.tryFlush, if_pos hlt]
          exact ih hrest _
    · have hdone : w.tryFlush (answer :: sink) = (.ok true, FrameWriter.new) := if_neg hlt
      exact ⟨true, congrArg Prod.fst hdone⟩

theorem write_ok (source : Source) {ready : Readiness}
    (h : ∀ answer ∈ ready.sink, isFatal answer = false) :
    ∃ action, (source.write ready).1 = .ok action ∧ action ≠ .remove ∧
      (source.write ready).2.reader = source.reader := by
  obtain ⟨drained, hdrained⟩ : ∃ drained, (if ready.writable then source.writer.tryFlush ready.sink
      else (.ok false, source.writer)).1 = .ok drained := by
    split
    · exact tryFlush_ok h source.writer
    · exact ⟨false, rfl⟩
  obtain ⟨e, hfailed, -⟩ | ⟨-, action, interest, -, hne, hwrite⟩ := source.write_cases ready
  · rw [hdrained] at hfailed
    cases hfailed
  · rw [hwrite]
    exact ⟨action, rfl, hne, rfl⟩

theorem processEvents_reads (pc : Postcard) (source : Source) {ready : Readiness}
    (h : ∀ answer ∈ ready.sink, isFatal answer = false) :
    (source.processEvents pc ready).delivered = (source.read pc ready).delivered ∧
      (source.processEvents pc ready).source.reader = (source.read pc ready).reader ∧
      ((source.processEvents pc ready).action = .remove ↔ (source.read pc ready).loss.isSome = true) := by
  obtain ⟨action, hwrite, hne, hreader⟩ :=
    write_ok { source.drainWriteChannel with reader := (source.read pc ready).reader } h
  -- draining the channel does not touch the reader
  obtain ⟨loss, hloss, hevents⟩ | ⟨e, -, hfailed, -⟩ | ⟨action', hloss, hwritten, hevents⟩ :
      (∃ loss, (source.read pc ready).loss = some loss ∧ _) ∨ _ ∨
        ∃ action, (source.read pc ready).loss = none ∧ _ := source.processEvents_cases pc ready
  · rw [hevents, hloss]
    exact ⟨rfl, rfl, by simp⟩
  · cases hwrite.symm.trans hfailed
  · obtain rfl : action = action' := Except.ok.inj (hwrite.symm.trans hwritten)
    rw [hevents, hloss]
    exact ⟨rfl, hreader, by simp [hne]⟩

end Sinks

section Sessions

variable {pc : Postcard} {maxMessageSize : UInt32} {socket : List Delivery} {x : Session}

def writesWell : Happening → Prop
  | .processEvents _ _ _ sink => ∀ answer ∈ sink, isFatal answer = false
  | _ => True

theorem bytesOf_append (ds ds' : List Delivery) : bytesOf (ds ++ ds') = bytesOf ds ++ bytesOf ds' := by
  induction ds with
  | nil => rfl
  | cons d ds ih => cases d <;> simp [bytesOf, ih]

/-- The source and the bridge, on the part of the stream that the source has taken. -/
structure Agrees (pc : Postcard) (codec : FrameCodec) (socket : List Delivery) (x : Session) :
    Prop where
  stream : x.taken ++ x.socket = socket
  atEnd : x.ended = true → x.socket = [] ∧ x.removed = true
  live : x.removed = false → ∃ left, Follows codec x.source.reader [] left ∧ ∀ ended more,
    relayed pc ended codec (bytesOf x.taken ++ more) =
      (relayed pc ended codec (left ++ more)).behind x.delivered
  dead : x.removed = true → ∀ ended more, (x.ended = true → ended = true ∧ more = []) →
    relayed pc ended codec (bytesOf x.taken ++ more) = ⟨x.delivered, true⟩

theorem agrees_new (pc : Postcard) (maxMessageSize : UInt32) (socket : List Delivery) :
    Agrees pc (.newPermissive maxMessageSize) socket (Session.new maxMessageSize socket) := by
  have hquiet : Healthy [] := fun _ => List.not_mem_nil
  have hfollows : Follows (.newPermissive maxMessageSize) (.new maxMessageSize true) [] [] :=
    follows_new maxMessageSize true hquiet
  exact ⟨rfl, nofun, fun _ => ⟨[], hfollows, fun _ _ => rfl⟩, nofun⟩

variable {codec : FrameCodec}

structure Polled (x y : Session) (out : ReadOutcome) : Prop where
  taken : y.taken = x.taken ++ (upToBlock x.socket).1
  socket : y.socket = (upToBlock x.socket).2
  ended : y.ended = (x.ended || decide (.wouldBlock ∉ (upToBlock x.socket).1))
  delivered : y.delivered = x.delivered ++ out.delivered
  removed : y.removed = out.loss.isSome
  reader : y.source.reader = out.reader

theorem polled (pc : Postcard) (x : Session) (token : PollToken) (writable : Bool)
    {sink : List SinkAnswer} (hsink : ∀ answer ∈ sink, isFatal answer = false) :
    Polled x (x.poll pc token true writable sink)
      (x.source.read pc ⟨true, writable, (upToBlock x.socket).1, sink⟩) := by
  let ready : Readiness := ⟨true, writable, (upToBlock x.socket).1, sink⟩
  obtain ⟨hdelivered, hreader, haction⟩ : _ ∧ _ ∧ (_ ↔ (x.source.read pc ready).loss.isSome = true) :=
    processEvents_reads pc x.source hsink
  refine ⟨rfl, rfl, rfl, congrArg (x.delivered ++ ·) hdelivered, ?_, hreader⟩
  show decide (_ = PostAction.remove) = _
  rw [Bool.eq_iff_iff, decide_eq_true_eq]
  exact haction

theorem agrees_poll (hfresh : codec.poisoned = false) (hsocket : Healthy socket)
    (h : Agrees pc codec socket x) (hremoved : x.removed = false) (token : PollToken)
    (writable : Bool) {sink : List SinkAnswer} (hsink : ∀ answer ∈ sink, isFatal answer = false) :
    Agrees pc codec socket (x.poll pc token true writable sink) ∧
      ((x.poll pc token true writable sink).removed = false → .wouldBlock ∈ (upToBlock x.socket).1) := by
  obtain ⟨left, hfollows, hlive⟩ := h.live hremoved
  have hended : x.ended = false := by
    cases hended : x.ended with
    | false => rfl
    | true => exact absurd (h.atEnd hended).2 (by rw [hremoved]; exact Bool.false_ne_true)
  obtain ⟨happend, hlast, hnone⟩ := upToBlock_fst x.socket
  have hpolled := polled pc x token writable hsink
  generalize x.poll pc token true writable sink = y at hpolled ⊢
  have hseg : Healthy (upToBlock x.socket).1 := by
    intro e he
    apply hsocket e
    rw [← h.stream, ← happend]
    exact List.mem_append_right _ (List.mem_append_left _ he)
  have htallies : Tallies pc codec (left ++ bytesOf (upToBlock x.socket).1) (upToBlock x.socket).1
      (x.source.read pc ⟨true, writable, (upToBlock x.socket).1, sink⟩) :=
    tallies_readFrames hfresh (follows_more hfollows hseg) (Nat.lt_succ_self _) hlast
  generalize x.source.read pc _ = out at hpolled htallies
  have hend : y.ended = decide (.wouldBlock ∉ (upToBlock x.socket).1) := by
    rw [hpolled.ended, hended, Bool.false_or]
  have hstream : y.taken ++ y.socket = socket := by
    rw [hpolled.taken, hpolled.socket, List.append_assoc, happend, h.stream]
  have hlater : ∀ ended more, relayed pc ended codec (bytesOf y.taken ++ more) =
      (relayed pc ended codec ((left ++ bytesOf (upToBlock x.socket).1) ++ more)).behind x.delivered := by
    intro ended more
    rw [hpolled.taken, bytesOf_append, List.append_assoc, hlive, List.append_assoc]
  have hgone := hpolled.removed
  unfold Tallies at htallies
  cases hloss : out.loss with
  | none =>
    rw [hloss] at htallies hgone
    obtain ⟨hblock, left', hfollows', hrest⟩ := htallies
    refine ⟨⟨hstream, fun hyes => ?_, fun _ => ⟨left', ?_, fun ended more => ?_⟩, fun hyes => ?_⟩,
      fun _ => hblock⟩
    · rw [hend, decide_eq_true_eq] at hyes
      exact absurd hblock hyes
    · rw [hpolled.reader]
      exact hfollows'
    · rw [hlater, hrest, behind_behind, hpolled.delivered]
    · cases hgone.symm.trans hyes
  | some loss =>
    rw [hloss] at htallies hgone
    refine ⟨⟨hstream, fun hyes => ⟨?_, hgone⟩, fun hno => ?_, fun _ ended more hmore => ?_⟩, fun hno => ?_⟩
    · rw [hpolled.socket]
      rw [hend, decide_eq_true_eq] at hyes
      exact hnone hyes
    · cases hgone.symm.trans hno
    · have hdone := htallies ended more fun hno => hmore (by rw [hend]; exact decide_eq_true hno)
      rw [hlater, hdone, hpolled.delivered]
      rfl
    · cases hgone.symm.trans hno

theorem agrees_unread (h : Agrees pc codec socket x) {y : Session}
    (htaken : y.taken = x.taken) (hsocket : y.socket = x.socket) (hended : y.ended = x.ended)
    (hremoved : y.removed = x.removed) (hdelivered : y.delivered = x.delivered)
    (hreader : y.source.reader = x.source.reader) : Agrees pc codec socket y where
  stream := by rw [htaken, hsocket, h.stream]
  atEnd := by
    rw [hended, hsocket, hremoved]
    exact h.atEnd
  live := by
    rw [htaken, hremoved, hdelivered, hreader]
    exact h.live
  dead := by
    rw [htaken, hremoved, hdelivered, hended]
    exact h.dead

theorem reader_peek (source : Source) : (Registered.peek source).reader = source.reader := by
  obtain ⟨-, hpeek⟩ | ⟨msg, msgs, -, -, hpeek⟩ := Registered.peek_cases source
  · rw [hpeek]
  · rw [hpeek]

/-- Whether a step is a call of `process_events` with readable readiness. -/
def isRead : Happening → Bool
  | .processEvents _ readable _ _ => readable
  | _ => false

theorem agrees_step (hfresh : codec.poisoned = false) (hsocket : Healthy socket)
    (h : Agrees pc codec socket x) (hremoved : x.removed = false) {happening : Happening}
    (hwell : writesWell happening) :
    Agrees pc codec socket (x.step pc happening) ∧
      ((x.step pc happening).removed = false → (x.step pc happening).taken.count .wouldBlock =
        x.taken.count .wouldBlock + if isRead happening then 1 else 0) := by
  rw [Session.step_live hremoved]
  cases happening with
  | send msg => exact ⟨agrees_unread h rfl rfl rfl rfl rfl rfl, fun _ => rfl⟩
  | enqueue msg => exact ⟨agrees_unread h rfl rfl rfl rfl rfl rfl, fun _ => rfl⟩
  | beforeSleep => exact ⟨agrees_unread h rfl rfl rfl rfl rfl (reader_peek _), fun _ => rfl⟩
  | processEvents token readable writable sink =>
    cases readable with
    | true =>
      obtain ⟨hagrees, hblock⟩ := agrees_poll hfresh hsocket h hremoved token writable hwell
      refine ⟨hagrees, fun hlive => ?_⟩
      show (x.taken ++ (upToBlock x.socket).1).count .wouldBlock = _
      rw [List.count_append, count_upToBlock (hblock hlive)]
      rfl
    | false =>
      let ready : Readiness := ⟨false, writable, [], sink⟩
      have hsink : ∀ answer ∈ ready.sink, isFatal answer = false := hwell
      obtain ⟨hdelivered, hreader, haction⟩ := processEvents_reads pc x.source hsink
      refine ⟨agrees_unread h (List.append_nil _) rfl (Bool.or_false _) ?_ ?_ hreader, fun _ => ?_⟩
      · rw [hremoved]
        exact decide_eq_false fun hgone => Bool.false_ne_true (haction.mp hgone)
      · show x.delivered ++ (x.source.processEvents pc ready).delivered = x.delivered
        rw [hdelivered]
        exact List.append_nil _
      · exact congrArg (List.count _) (List.append_nil x.taken)

theorem agrees_run (pc : Postcard) (maxMessageSize : UInt32) (hsocket : Healthy socket)
    {happenings : List Happening} (hwell : ∀ happening ∈ happenings, writesWell happening) :
    Agrees pc (.newPermissive maxMessageSize) socket (Session.run pc maxMessageSize socket happenings) ∧
      ((Session.run pc maxMessageSize socket happenings).removed = false →
        (Session.run pc maxMessageSize socket happenings).taken.count .wouldBlock =
          happenings.countP isRead) := by
  induction happenings using List.reverseRecOn with
  | nil => exact ⟨agrees_new pc maxMessageSize socket, fun _ => rfl⟩
  | append_singleton happenings happening ih =>
    obtain ⟨hagrees, hcount⟩ := ih fun h hh => hwell h (List.mem_append_left _ hh)
    rw [Session.run_concat]
    cases hremoved : (Session.run pc maxMessageSize socket happenings).removed with
    | true =>
      rw [Session.step_removed hremoved]
      refine ⟨hagrees, fun h => ?_⟩
      rw [hremoved] at h
      cases h
    | false =>
      have hlast : writesWell happening := hwell happening (List.mem_append_right _ List.mem_cons_self)
      obtain ⟨hstep, hmore⟩ := agrees_step rfl hsocket hagrees hremoved hlast
      refine ⟨hstep, fun h => ?_⟩
      rw [hmore h, hcount hremoved, List.countP_append, List.countP_singleton]

end Sessions

/-- At every moment the source has handed on what the reader thread of the bridge
sends for the same bytes, and it is removed exactly if that thread exits. Once it is
removed, the bridge stops with the same messages on the whole stream; and this happens
at the latest when the source was called once more than the socket blocks. -/
theorem read_paths_agree (pc : Postcard) (maxMessageSize : UInt32) (socket : List Delivery)
    (hsocket : Healthy socket) (happenings : List Happening)
    (hwell : ∀ happening ∈ happenings, writesWell happening) :
    let x := Session.run pc maxMessageSize socket happenings
    let bridge := fun ended bytes => relayed pc ended (.newPermissive maxMessageSize) bytes
    (bridge x.ended (bytesOf x.taken)).messages = x.delivered ∧
      ((bridge x.ended (bytesOf x.taken)).exited = true ↔ x.removed = true) ∧
      (x.removed = true → bridge true (bytesOf socket) = ⟨x.delivered, true⟩) ∧
      (socket.count .wouldBlock < happenings.countP isRead → x.removed = true) := by
  intro x bridge
  obtain ⟨hagrees, hcount⟩ : Agrees pc (.newPermissive maxMessageSize) socket x ∧ (x.removed = false →
      x.taken.count .wouldBlock = happenings.countP isRead) := agrees_run pc maxMessageSize hsocket hwell
  have hbytes : bytesOf x.taken ++ bytesOf x.socket = bytesOf socket := by
    rw [← bytesOf_append, hagrees.stream]
  cases hremoved : x.removed with
  | true =>
    have hnow : bridge x.ended (bytesOf x.taken) = ⟨x.delivered, true⟩ := by
      have hdead := hagrees.dead hremoved x.ended [] fun h => ⟨h, rfl⟩
      rwa [List.append_nil] at hdead
    refine ⟨by rw [hnow], by rw [hnow], fun _ => ?_, fun _ => rfl⟩
    have hwhole := hagrees.dead hremoved true (bytesOf x.socket) fun h => ⟨rfl, by rw [(hagrees.atEnd h).1]; rfl⟩
    rwa [hbytes] at hwhole
  | false =>
    obtain ⟨left, hfollows, hlive⟩ := hagrees.live hremoved
    have hended : x.ended = false := by
      cases hended : x.ended with
      | false => rfl
      | true => exact absurd (hremoved.symm.trans (hagrees.atEnd hended).2) Bool.false_ne_true
    have hwaits : relayed pc false (.newPermissive maxMessageSize) left = ⟨[], false⟩ :=
      relayed_error rfl (congrArg Prod.fst (waiting_incomplete hfollows))
    have hnow : bridge x.ended (bytesOf x.taken) = ⟨x.delivered, false⟩ := by
      have hlater := hlive false []
      rw [List.append_nil, List.append_nil, hwaits] at hlater
      rw [hended]
      exact hlater.trans (congrArg (Relayed.mk · false) (List.append_nil _))
    refine ⟨by rw [hnow], by rw [hnow], nofun, fun hmany => ?_⟩
    have hle : x.taken.count .wouldBlock ≤ socket.count .wouldBlock := by
      rw [← hagrees.stream, List.count_append]
      exact Nat.le_add_right _ _
    rw [hcount hremoved] at hle
    omega

def split : List Delivery :=
  [.chunk 4 [0, 0], .wouldBlock, .chunk 0 [0, 0, 0, 0, 3, 0, 0], .interrupted, .chunk 0 [5, 0, 7], .wouldBlock]

def calls : List Happening :=
  [.processEvents 1 true false [], .send (5, [1]), .processEvents 1 true true [.wrote 2, .wouldBlock],
    .beforeSleep, .processEvents 1 true false []]

theorem read_paths_agree_split :
    Healthy split ∧ (∀ happening ∈ calls, writesWell happening) ∧
      (Session.run postcard 64 split calls).removed = true ∧
      relayed postcard true (.newPermissive 64) (bytesOf split) =
        ⟨(Session.run postcard 64 split calls).delivered, true⟩ := by
  have hsplit : Healthy split := by
    intro e he
    simp [split] at he
  have hcalls : ∀ happening ∈ calls, writesWell happening := by
    intro happening h
    simp only [calls, List.mem_cons, List.not_mem_nil, or_false] at h
    obtain rfl | rfl | rfl | rfl | rfl := h <;> simp [writesWell, isFatal]
  obtain ⟨-, -, hwhole, hremoved⟩ := read_paths_agree postcard 64 split hsplit calls hcalls
  have hgone : (Session.run postcard 64 split calls).removed = true := hremoved (by decide)
  exact ⟨hsplit, hcalls, hgone, hwhole hgone⟩

end Pane.ReadPaths
