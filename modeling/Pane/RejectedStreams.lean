import Pane.DecoderAgreement

namespace Pane.RejectedStreams

open Pane.HashTable Pane.Messages Pane.Serialization Pane.Framing Pane.NonBlockingFraming
open Pane.DecoderAgreement (Healthy Fills fills_readInto)

section Calls

variable {σ C A : Type} (perform : C → σ → List A × σ)

def after : σ → List C → σ
  | s, [] => s
  | s, c :: cs => after (perform c s).2 cs

def answers : σ → List C → List A
  | _, [] => []
  | s, c :: cs => (perform c s).1 ++ answers (perform c s).2 cs

theorem answers_append (s : σ) (cs cs' : List C) :
    answers perform s (cs ++ cs') =
      answers perform s cs ++ answers perform (after perform s cs) cs' := by
  induction cs generalizing s with
  | nil => rfl
  | cons c cs ih =>
    rw [List.cons_append, answers, answers, after, ih, List.append_assoc]

theorem answers_of_stuck {perform : C → σ → List A × σ} {stuck : σ → Prop} {answer : C → List A}
    (h : ∀ c s, stuck s → (perform c s).1 = answer c ∧ stuck (perform c s).2) {s : σ} (hs : stuck s)
    (cs : List C) : answers perform s cs = cs.flatMap answer := by
  induction cs generalizing s with
  | nil => rfl
  | cons c cs ih =>
    obtain ⟨hanswer, hstuck⟩ := h c s hs
    rw [answers, hanswer, ih hstuck, List.flatMap_cons]

theorem answers_stuck_at {perform : C → σ → List A × σ} {stuck : σ → Prop} {answer : C → List A}
    (h : ∀ c s, stuck s → (perform c s).1 = answer c ∧ stuck (perform c s).2) {s : σ}
    (before later : List C) {c : C} (hc : stuck (perform c (after perform s before)).2) :
    answers perform s (before ++ c :: later) =
      answers perform s before ++
        ((perform c (after perform s before)).1 ++ later.flatMap answer) := by
  rw [answers_append, answers, answers_of_stuck h hc]

end Calls

section Blocking

def wouldBlock : IoError := ⟨.other 11, "Resource temporarily unavailable (os error 11)"⟩

def readExact (n : Nat) (source : List Delivery) : Except IoError Bytes × List Delivery :=
  let got := readInto (List.replicate n 0) 0 source
  match got.progress with
  | .complete => (.ok got.buf, got.source)
  | .wouldBlock => (.error wouldBlock, got.source)
  | .eof => (.error ⟨.unexpectedEof, "failed to fill whole buffer"⟩, got.source)
  | .error e => (.error e, got.source)

/-- `read_frame_inner` on a reader that delivers in pieces and may fail. -/
def readInnerFrom (codec : FrameCodec) (source : List Delivery) :
    Except FrameError Frame × List Delivery :=
  match readExact 4 source with
  | (.error e, source) => (.error (.transport e), source)
  | (.ok lenBuf, source) =>
    let length := UInt32.ofNat (fromLeBytes lenBuf)
    if length < 2 then (.error (.tooShort length), source)
    else if codec.maxMessageSize < length then
      (.error (.oversized length codec.maxMessageSize), source)
    else match readExact length.toNat source with
      | (.error e, source) => (.error (.transport e), source)
      | (.ok body, source) => (codec.acceptBody body, source)

/-- `read_frame` on such a reader. -/
def readFrom (codec : FrameCodec) (source : List Delivery) :
    Except FrameError Frame × FrameCodec × List Delivery :=
  if codec.poisoned then (.error .poisoned, codec, source)
  else match readInnerFrom codec source with
    | (.ok frame, source) => (.ok frame, codec, source)
    | (.error e, source) => (.error e, { codec with poisoned := true }, source)

def Patient (ds : List Delivery) : Prop :=
  ∀ d ∈ ds, d = .interrupted ∨ ∃ first more, d = .chunk first more

theorem Patient.healthy {ds : List Delivery} (h : Patient ds) : Healthy ds := by
  intro e he
  obtain he | ⟨first, more, he⟩ := h _ he <;> cases he

theorem Patient.tail {d : Delivery} {ds : List Delivery} (h : Patient (d :: ds)) : Patient ds :=
  fun x hx => h x (List.mem_cons_of_mem d hx)

theorem Patient.putBack {ds : List Delivery} (h : Patient ds) (left : Bytes) :
    Patient (putBack left ds) := by
  cases left with
  | nil => exact h
  | cons first more =>
    intro d hd
    obtain rfl | hd := List.mem_cons.mp hd
    · exact .inr ⟨first, more, rfl⟩
    · exact h d hd

theorem readInto_patient {ds : List Delivery} (h : Patient ds) (buf : Bytes) (filled : Nat) :
    (readInto buf filled ds).progress ≠ .wouldBlock ∧ Patient (readInto buf filled ds).source := by
  induction ds generalizing buf filled with
  | nil =>
    refine ⟨?_, h⟩
    rw [readInto]
    dsimp only
    split <;> simp
  | cons d ds ih =>
    unfold readInto
    by_cases hlt : filled < buf.length
    · rw [if_pos hlt]
      obtain rfl | ⟨first, more, rfl⟩ := h d List.mem_cons_self
      · exact ih h.tail buf filled
      · dsimp only
        split
        · exact ih h.tail _ _
        · exact ⟨by simp, h.tail.putBack _⟩
    · rw [if_neg hlt]
      exact ⟨by simp, h⟩

theorem readExact_patient {ds : List Delivery} (h : Patient ds) (n : Nat) :
    match readExact n ds with
    | (.ok bytes, rest) => takeBytes n (bytesOf ds) = some (bytes, bytesOf rest) ∧ Patient rest
    | (.error e, rest) => takeBytes n (bytesOf ds) = none ∧
        FrameError.transport e = .endOfStream ∧ bytesOf rest = [] := by
  have hf : Fills (List.replicate n 0) 0 ds _ := fills_readInto (Nat.zero_le _)
  obtain ⟨hprogress, hrest⟩ := readInto_patient h (List.replicate n 0) 0
  rw [readExact]
  generalize readInto (List.replicate n 0) 0 ds = got at hf hprogress hrest ⊢
  obtain ⟨progress, buf, filled, rest⟩ := got
  have hstream : buf.take filled ++ bytesOf rest = bytesOf ds := hf.stream
  have hlength : buf.length = n := hf.length.trans (List.length_replicate ..)
  cases progress with
  | wouldBlock => exact absurd rfl hprogress
  | error e => exact absurd rfl (hf.error h.healthy e)
  | eof =>
    obtain ⟨hlt, rfl⟩ := hf.eof rfl
    replace hlt : filled < n := by simpa using hlt
    refine ⟨takeBytes_short ?_, rfl, rfl⟩
    rw [← hstream, List.length_append, List.length_take]
    show min filled buf.length + 0 < n
    omega
  | complete =>
    have hfilled : filled = n := (hf.complete rfl).trans (List.length_replicate ..)
    rw [hfilled, ← hlength, List.take_length] at hstream
    refine ⟨?_, hrest⟩
    rw [← hstream, ← hlength]
    exact takeBytes_append buf _

theorem readFrom_patient (codec : FrameCodec) {ds : List Delivery} (h : Patient ds) :
    (codec.readFrame (bytesOf ds)) =
      ((readFrom codec ds).1, (readFrom codec ds).2.1, bytesOf (readFrom codec ds).2.2) := by
  have hinner : codec.readFrameInner (bytesOf ds) =
      ((readInnerFrom codec ds).1, bytesOf (readInnerFrom codec ds).2) := by
    have hprefix := readExact_patient h 4
    rw [FrameCodec.readFrameInner, readInnerFrom]
    generalize readExact 4 ds = read at hprefix ⊢
    obtain ⟨lenBuf | lenBuf, rest⟩ := read
    · obtain ⟨hnone, hend, hnil⟩ := hprefix
      rw [hnone]
      dsimp only
      rw [hend, hnil]
    · obtain ⟨hsome, hrest⟩ := hprefix
      rw [hsome]
      have hbody := readExact_patient hrest (UInt32.ofNat (fromLeBytes lenBuf)).toNat
      dsimp only [FrameCodec.readBody]
      split
      · rfl
      split
      · rfl
      generalize readExact (UInt32.ofNat (fromLeBytes lenBuf)).toNat rest = read at hbody ⊢
      obtain ⟨body | body, rest'⟩ := read
      · obtain ⟨hnone, hend, hnil⟩ := hbody
        rw [hnone]
        dsimp only
        rw [hend, hnil]
      · rw [hbody.1]
  rw [FrameCodec.readFrame, readFrom]
  split
  · rfl
  · rw [hinner]
    generalize readInnerFrom codec ds = read
    obtain ⟨result, rest⟩ := read
    cases result <;> rfl

/-- What the owner of a codec can do with it. -/
inductive CodecCall
  | readFrame (source : List Delivery)
  | setMaxMessageSize (max : UInt32)
  | registerService (service : UInt16)

/-- The answer of a call with what is left of its source, and the codec behind it.
A panic leaves the codec as it was. -/
def CodecCall.perform : CodecCall → FrameCodec →
    List (Except FrameError Frame × List Delivery) × FrameCodec
  | .readFrame source, codec =>
    ([((readFrom codec source).1, (readFrom codec source).2.2)], (readFrom codec source).2.1)
  | .setMaxMessageSize max, codec => ([], codec.setMaxMessageSize max)
  | .registerService service, codec => ([], (codec.registerService service).getD codec)

def CodecCall.refusal : CodecCall → List (Except FrameError Frame × List Delivery)
  | .readFrame source => [(.error .poisoned, source)]
  | _ => []

theorem perform_poisoned (call : CodecCall) (codec : FrameCodec) (h : codec.poisoned = true) :
    (call.perform codec).1 = call.refusal ∧ (call.perform codec).2.poisoned = true := by
  cases call with
  | readFrame source =>
    rw [CodecCall.perform, readFrom, if_pos h]
    exact ⟨rfl, h⟩
  | setMaxMessageSize max => exact ⟨rfl, h⟩
  | registerService service =>
    refine ⟨rfl, ?_⟩
    rw [CodecCall.perform, FrameCodec.registerService]
    split <;> exact h

theorem poisoned_of_error {codec : FrameCodec} {source : List Delivery} {e : FrameError}
    (h : (readFrom codec source).1 = .error e) : (readFrom codec source).2.1.poisoned = true := by
  rw [readFrom] at h ⊢
  by_cases hpoisoned : codec.poisoned
  · rw [if_pos hpoisoned]
    exact hpoisoned
  · rw [if_neg hpoisoned] at h ⊢
    cases hinner : readInnerFrom codec source with
    | mk result rest =>
      rw [hinner] at h
      cases result with
      | ok frame => cases h
      | error e => rfl

end Blocking

section NonBlocking

variable {r : FrameReader} {source : List Delivery} {e : FrameError}

def isProtocol : FrameError → Bool
  | .tooShort _ => true
  | .oversized .. => true
  | .unknownService _ => true
  | _ => false

/-- The answer of a call with what is left of its source, and the reader behind it. -/
def poll (source : List Delivery) (r : FrameReader) :
    List (Except FrameError (Option Frame) × List Delivery) × FrameReader :=
  ([((r.tryReadFrame source).1, (r.tryReadFrame source).2.2)], (r.tryReadFrame source).2.1)

theorem readInto_full {buf : Bytes} {filled : Nat} (h : ¬ filled < buf.length)
    (source : List Delivery) : readInto buf filled source = ⟨.complete, buf, filled, source⟩ := by
  cases source with
  | nil => rw [readInto, if_neg h]
  | cons d ds =>
    unfold readInto
    rw [if_neg h]

theorem full_of_complete (buf : Bytes) (filled : Nat) (source : List Delivery)
    (h : (readInto buf filled source).progress = .complete) :
    ¬ (readInto buf filled source).filled < (readInto buf filled source).buf.length := by
  by_cases hfilled : filled < buf.length
  · have hf : Fills buf filled source _ := fills_readInto (Nat.le_of_lt hfilled)
    rw [hf.length, hf.complete h]
    exact Nat.lt_irrefl _
  · rwa [readInto_full hfilled]

def Rejects (e : FrameError) (r : FrameReader) : Prop :=
  ∀ source, r.tryReadFrame source = (.error e, r, source)

theorem rejects_takeBody {bodyLen : UInt32} (hstate : r.state = .body bodyLen)
    (he : isProtocol e = true) (h : (r.takeBody bodyLen source).1 = .error e) :
    Rejects e (r.takeBody bodyLen source).2.1 := by
  have hcomplete := full_of_complete r.buf r.filled source
  rw [FrameReader.takeBody] at h ⊢
  generalize readInto r.buf r.filled source = got at h hcomplete ⊢
  obtain ⟨progress, buf, filled, rest⟩ := got
  cases progress with
  | wouldBlock => cases h
  | eof => cases h; cases he
  | error error => cases h; cases he
  | complete =>
    have hfull := hcomplete rfl
    dsimp only at h hfull ⊢
    split at h
    · cases h
    · next habort =>
      split at h
      · next hservice =>
        cases h
        intro source'
        rw [if_neg habort, if_pos hservice]
        simp only [FrameReader.tryReadFrame, hstate, FrameReader.takeBody, readInto_full hfull]
        rw [if_neg habort, if_pos hservice]
      · cases h

theorem rejects_takeLength (hstate : r.state = .length) (he : isProtocol e = true)
    (h : (r.takeLength source).1 = .error e) : Rejects e (r.takeLength source).2.1 := by
  have hcomplete := full_of_complete r.buf r.filled source
  rw [FrameReader.takeLength] at h ⊢
  generalize readInto r.buf r.filled source = got at h hcomplete ⊢
  obtain ⟨progress, buf, filled, rest⟩ := got
  cases progress with
  | wouldBlock => cases h
  | eof =>
    dsimp only at h
    split at h <;> (cases h; cases he)
  | error error => cases h; cases he
  | complete =>
    have hfull := hcomplete rfl
    dsimp only at h hfull ⊢
    split at h
    · next hshort =>
      cases h
      intro source'
      rw [if_pos hshort]
      simp only [FrameReader.tryReadFrame, hstate, FrameReader.takeLength, readInto_full hfull]
      rw [if_pos hshort]
    · next hshort =>
      rw [if_neg hshort]
      split at h
      · next hlong =>
        cases h
        intro source'
        rw [if_pos hlong]
        simp only [FrameReader.tryReadFrame, hstate, FrameReader.takeLength, readInto_full hfull]
        rw [if_neg hshort, if_pos hlong]
      · next hlong =>
        rw [if_neg hlong]
        exact rejects_takeBody rfl he h

theorem rejects_tryReadFrame (he : isProtocol e = true) (h : (r.tryReadFrame source).1 = .error e) :
    Rejects e (r.tryReadFrame source).2.1 := by
  cases hstate : r.state with
  | length =>
    have htake : r.tryReadFrame source = r.takeLength source := by
      rw [FrameReader.tryReadFrame, hstate]
    rw [htake] at h ⊢
    exact rejects_takeLength hstate he h
  | body bodyLen =>
    have htake : r.tryReadFrame source = r.takeBody bodyLen source := by
      rw [FrameReader.tryReadFrame, hstate]
    rw [htake] at h ⊢
    exact rejects_takeBody hstate he h

theorem poll_rejects (source : List Delivery) (r : FrameReader) (h : Rejects e r) :
    (poll source r).1 = [(.error e, source)] ∧ Rejects e (poll source r).2 := by
  rw [poll, h source]
  exact ⟨rfl, h⟩

end NonBlocking

/-- After an error neither decoder reads on: whatever calls follow and whatever
they are given to read, they are refused and no byte is taken. -/
theorem no_resynchronisation :
    (∀ (codec : FrameCodec) (before later : List CodecCall) (source : List Delivery)
        (e : FrameError), (readFrom (after CodecCall.perform codec before) source).1 = .error e →
      answers CodecCall.perform codec (before ++ .readFrame source :: later) =
        answers CodecCall.perform codec before ++
          (.error e, (readFrom (after CodecCall.perform codec before) source).2.2) ::
            later.flatMap CodecCall.refusal) ∧
    ∀ (r : FrameReader) (before later : List (List Delivery)) (source : List Delivery)
        (e : FrameError), isProtocol e = true →
      ((after poll r before).tryReadFrame source).1 = .error e →
      answers poll r (before ++ source :: later) =
        answers poll r before ++
          (.error e, ((after poll r before).tryReadFrame source).2.2) ::
            later.map fun source => (.error e, source) := by
  constructor
  · intro codec before later source e he
    have hstuck : (CodecCall.perform (.readFrame source)
        (after CodecCall.perform codec before)).2.poisoned = true := poisoned_of_error he
    rw [answers_stuck_at perform_poisoned before later hstuck, CodecCall.perform, he]
    rfl
  · intro r before later source e hprotocol he
    have hstuck : Rejects e (poll source (after poll r before)).2 :=
      rejects_tryReadFrame hprotocol he
    rw [answers_stuck_at poll_rejects before later hstuck, poll, he, ← List.map_eq_flatMap]
    rfl

def mangled : List Delivery := [.chunk 1 [0, 0], .interrupted, .chunk 0 [3, 0, 0, 0, 0, 0, 7]]

theorem no_resynchronisation_mangled :
    answers CodecCall.perform (.new 16)
        [.readFrame mangled, .registerService 5, .readFrame mangled] =
      [(.error (.tooShort 1), [.chunk 3 [0, 0, 0, 0, 0, 7]]), (.error .poisoned, mangled)] ∧
    answers poll (.new 16 false) [[.chunk 1 [0], .wouldBlock], mangled, mangled] =
      [(.ok none, []), (.error (.oversized 65537 16), [.chunk 0 [], .interrupted,
        .chunk 0 [3, 0, 0, 0, 0, 0, 7]]), (.error (.oversized 65537 16), mangled)] := by
  constructor
  · exact no_resynchronisation.1 (.new 16) [] [.registerService 5, .readFrame mangled] mangled
      (.tooShort 1) (by decide +kernel)
  · exact no_resynchronisation.2 (.new 16 false) [[.chunk 1 [0], .wouldBlock]] [mangled] mangled
      (.oversized 65537 16) rfl (by decide +kernel)

end Pane.RejectedStreams
