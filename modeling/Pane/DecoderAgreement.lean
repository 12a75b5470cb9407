import Pane.NonBlockingFraming

namespace Pane.DecoderAgreement

open Pane.HashTable Pane.Messages Pane.Serialization Pane.Framing Pane.NonBlockingFraming

/-- A source on which only the end of the stream is an error. -/
def Healthy (ds : List Delivery) : Prop := ∀ e, Delivery.failed e ∉ ds

theorem Healthy.tail {d : Delivery} {ds : List Delivery} (h : Healthy (d :: ds)) : Healthy ds :=
  fun e he => h e (List.mem_cons_of_mem d he)

/-- What `read_into` promises about its buffer: no byte of the stream is lost,
and how far it came depends on why it stopped. -/
structure Fills (buf : Bytes) (filled : Nat) (ds : List Delivery) (got : Reading) : Prop where
  length : got.buf.length = buf.length
  stream : got.buf.take got.filled ++ bytesOf got.source = buf.take filled ++ bytesOf ds
  healthy : Healthy ds → Healthy got.source
  complete : got.progress = .complete → got.filled = buf.length
  wouldBlock : got.progress = .wouldBlock → got.filled < buf.length
  eof : got.progress = .eof → got.filled < buf.length ∧ got.source = []
  error : Healthy ds → ∀ e, got.progress ≠ .error e
  notMore : size got.source ≤ size ds
  less : filled < buf.length → got.progress ≠ .eof → size got.source < size ds

theorem length_overwrite {buf : Bytes} {pos : Nat} {got : Bytes} (h : pos + got.length ≤ buf.length) :
    (overwrite buf pos got).length = buf.length := by
  simp [overwrite]
  omega

theorem take_overwrite {buf : Bytes} {pos : Nat} {got : Bytes} (h : pos ≤ buf.length) :
    (overwrite buf pos got).take (pos + got.length) = buf.take pos ++ got := by
  apply List.take_left'
  simp [h]

theorem fills_full {buf : Bytes} {filled : Nat} {ds : List Delivery}
    (hfilled : filled = buf.length) : Fills buf filled ds ⟨.complete, buf, filled, ds⟩ where
  length := rfl
  stream := rfl
  healthy hds := hds
  complete _ := hfilled
  wouldBlock h := by cases h
  eof h := by cases h
  error _ e h := by cases h
  notMore := Nat.le_refl _
  less h := absurd h (by omega)

theorem fills_chunk {buf : Bytes} {filled : Nat} {first : UInt8} {more : Bytes} {ds : List Delivery}
    {got : Reading} (hroom : filled + (more.length + 1) ≤ buf.length)
    (h : Fills (overwrite buf filled (first :: more)) (filled + (more.length + 1)) ds got) :
    Fills buf filled (.chunk first more :: ds) got := by
  have hlen : (overwrite buf filled (first :: more)).length = buf.length :=
    length_overwrite (by simpa using hroom)
  have htake : (overwrite buf filled (first :: more)).take (filled + (more.length + 1)) =
      buf.take filled ++ (first :: more) := by
    rw [← List.length_cons]
    exact take_overwrite (by omega)
  have hsize := h.notMore
  refine ⟨h.length.trans hlen, ?_, fun hds => h.healthy hds.tail, ?_, ?_, ?_,
    fun hds => h.error hds.tail, ?_, ?_⟩
  · rw [h.stream, htake, List.append_assoc]
    rfl
  · exact fun hc => (h.complete hc).trans hlen
  · exact fun hw => hlen ▸ h.wouldBlock hw
  · exact fun he => hlen ▸ h.eof he
  · show _ ≤ more.length + 1 + size ds
    omega
  · intro _ _
    show _ < more.length + 1 + size ds
    omega

theorem fills_part {buf : Bytes} {filled : Nat} {first : UInt8} {more : Bytes} {ds : List Delivery}
    (hlt : filled < buf.length) (hroom : buf.length < filled + (more.length + 1)) :
    Fills buf filled (.chunk first more :: ds)
      ⟨.complete, overwrite buf filled ((first :: more).take (buf.length - filled)),
        filled + ((first :: more).take (buf.length - filled)).length,
        putBack ((first :: more).drop (buf.length - filled)) ds⟩ := by
  have hgot : ((first :: more).take (buf.length - filled)).length = buf.length - filled := by
    rw [List.length_take, List.length_cons]
    omega
  have hsize : size (putBack ((first :: more).drop (buf.length - filled)) ds) <
      size (.chunk first more :: ds) := by
    rw [size_putBack, List.length_drop, List.length_cons, size]
    omega
  refine ⟨length_overwrite (by omega), ?_, ?_, fun _ => ?_, nofun, nofun, fun _ => nofun,
    Nat.le_of_lt hsize, fun _ _ => hsize⟩
  · have hchunk := List.take_append_drop (buf.length - filled) (first :: more)
    rw [take_overwrite (Nat.le_of_lt hlt), bytesOf_putBack, List.append_assoc,
      ← List.append_assoc ((first :: more).take _), hchunk]
    rfl
  · intro hds e he
    have hds := hds.tail
    cases hleft : (first :: more).drop (buf.length - filled) with
    | nil =>
      rw [hleft] at he
      exact hds e he
    | cons b bs =>
      rw [hleft] at he
      obtain he | he := List.mem_cons.mp he
      · cases he
      · exact hds e he
  · show filled + ((first :: more).take (buf.length - filled)).length = buf.length
    omega

theorem fills_readInto {buf : Bytes} {filled : Nat} {ds : List Delivery}
    (hfilled : filled ≤ buf.length) : Fills buf filled ds (readInto buf filled ds) := by
  induction ds generalizing buf filled with
  | nil =>
    by_cases hlt : filled < buf.length
    · rw [readInto, if_pos hlt]
      exact ⟨rfl, rfl, id, nofun, nofun, fun _ => ⟨hlt, rfl⟩, fun _ => nofun, Nat.le_refl _,
        fun _ h => absurd rfl h⟩
    · rw [readInto, if_neg hlt]
      exact fills_full (by omega)
  | cons d ds ih =>
    by_cases hlt : filled < buf.length
    · unfold readInto
      rw [if_pos hlt]
      cases d with
      | wouldBlock =>
        exact ⟨rfl, rfl, Healthy.tail, nofun, fun _ => hlt, nofun, fun _ => nofun,
          Nat.le_add_left _ _, fun _ _ => Nat.lt_add_of_pos_left Nat.one_pos⟩
      | failed e =>
        exact ⟨rfl, rfl, Healthy.tail, nofun, nofun, nofun,
          fun hds => absurd List.mem_cons_self (hds e), Nat.le_add_left _ _,
          fun _ _ => Nat.lt_add_of_pos_left Nat.one_pos⟩
      | interrupted =>
        have h := ih hfilled
        have hsize := h.notMore
        exact ⟨h.length, h.stream, fun hds => h.healthy hds.tail, h.complete, h.wouldBlock, h.eof,
          fun hds => h.error hds.tail, Nat.le_trans hsize (Nat.le_add_left _ _),
          fun _ _ => Nat.lt_of_le_of_lt hsize (Nat.lt_add_of_pos_left Nat.one_pos)⟩
      | chunk first more =>
        dsimp only
        by_cases hroom : more.length + 1 ≤ buf.length - filled
        · have htake : (first :: more).take (buf.length - filled) = first :: more :=
            List.take_of_length_le (by simpa using hroom)
          rw [if_pos hroom, htake]
          apply fills_chunk (by omega)
          apply ih
          rw [length_overwrite (by simp only [List.length_cons]; omega)]
          omega
        · rw [if_neg hroom]
          exact fills_part hlt (by omega)
    · unfold readInto
      rw [if_neg hlt]
      exact fills_full (by omega)

/-- Where a reader stands in the stream: in the state `Body` the prefix is behind
it, and the length that it announced has passed the checks. -/
def Position (r : FrameReader) (ds : List Delivery) (bytes : Bytes) : Prop :=
  match r.state with
  | .length => r.buf.length = 4 ∧ r.filled < 4 ∧ bytes = r.buf.take r.filled ++ bytesOf ds
  | .body n => (¬ n < 2 ∧ ¬ r.maxMessageSize < n) ∧ r.buf.length = n.toNat ∧ r.filled < n.toNat ∧
      bytes = toLeBytes 4 n.toNat ++ (r.buf.take r.filled ++ bytesOf ds)

/-- The reader does the work of a blocking codec that has `bytes` before it. -/
structure Follows (codec : FrameCodec) (r : FrameReader) (ds : List Delivery) (bytes : Bytes) :
    Prop where
  limit : codec.maxMessageSize = r.maxMessageSize
  permissive : codec.permissive = r.permissive
  known : r.permissive = false → ∀ service, service ∈ codec.knownServices ↔ service = 0
  healthy : Healthy ds
  position : Position r ds bytes

def Answers (codec : FrameCodec) (bytes : Bytes) (left : Nat) :
    Except FrameError (Option Frame) × FrameReader × List Delivery → Prop
  | (.ok none, r, ds) => Follows codec r ds bytes ∧ size ds < left
  | (.ok (some frame), r, ds) => ∃ rest, codec.readFrameInner bytes = (.ok frame, rest) ∧
      Follows codec r ds rest ∧ size ds < left
  | (.error e, _, _) => ∃ e' rest, codec.readFrameInner bytes = (.error e', rest) ∧
      e.forgetText = e'.forgetText ∧ (bytes = [] → e = FrameReader.closed)

theorem Answers.mono {codec : FrameCodec} {bytes : Bytes} {left left' : Nat}
    {answer : Except FrameError (Option Frame) × FrameReader × List Delivery} (hle : left ≤ left')
    (h : Answers codec bytes left answer) : Answers codec bytes left' answer := by
  obtain ⟨result, r, ds⟩ := answer
  cases result with
  | error e => exact h
  | ok frame =>
    cases frame with
    | none => exact ⟨h.1, Nat.lt_of_lt_of_le h.2 hle⟩
    | some frame =>
      obtain ⟨rest, hread, hf, hlt⟩ := h
      exact ⟨rest, hread, hf, Nat.lt_of_lt_of_le hlt hle⟩

theorem length_resize (n : Nat) (buf : Bytes) : (resize n buf).length = n := by
  simp [resize]
  omega

section Simulation

variable {codec : FrameCodec} {r : FrameReader} {ds : List Delivery} {bytes : Bytes}

theorem follows_new (max : UInt32) (permissive : Bool) (hds : Healthy ds) :
    Follows (if permissive then .newPermissive max else .new max) (.new max permissive) ds
      (bytesOf ds) := by
  cases permissive with
  | true => exact ⟨rfl, rfl, nofun, hds, rfl, Nat.zero_lt_succ 3, rfl⟩
  | false =>
    refine ⟨rfl, rfl, fun _ service => ?_, hds, rfl, Nat.zero_lt_succ 3, rfl⟩
    exact (AList.mem_insert _).trans (by simp)

theorem acceptBody_follows (h : Follows codec r ds bytes) (body : Bytes) :
    codec.acceptBody body =
      (let service := UInt16.ofNat (fromLeBytes (body.take 2))
      if service = 0xFFFF then .ok .abort
      else if r.permissive = false ∧ service ≠ 0 then .error (.unknownService service)
      else .ok (.message service (body.drop 2))) := by
  have hcheck : (codec.permissive = false ∧
      UInt16.ofNat (fromLeBytes (body.take 2)) ∉ codec.knownServices) ↔
      (r.permissive = false ∧ UInt16.ofNat (fromLeBytes (body.take 2)) ≠ 0) := by
    rw [h.permissive]
    exact and_congr_right (fun hp => not_congr (h.known hp _))
  simp only [FrameCodec.acceptBody, hcheck]

theorem readFrameInner_whole {n : UInt32} {body rest : Bytes} (h : Follows codec r ds bytes)
    (hn : ¬ n < 2 ∧ ¬ r.maxMessageSize < n) (hbody : body.length = n.toNat)
    (hbytes : bytes = toLeBytes 4 n.toNat ++ (body ++ rest)) :
    codec.readFrameInner bytes = (codec.acceptBody body, rest) := by
  have htake := takeBytes_append body rest
  rw [hbody] at htake
  rw [hbytes, readFrameInner_toLeBytes, UInt32.ofNat_toNat, FrameCodec.readBody, if_neg hn.1,
    h.limit, if_neg hn.2, htake]

theorem readFrameInner_cut {n : UInt32} {rest : Bytes} (h : Follows codec r ds bytes)
    (hn : ¬ n < 2 ∧ ¬ r.maxMessageSize < n) (hrest : rest.length < n.toNat)
    (hbytes : bytes = toLeBytes 4 n.toNat ++ rest) :
    codec.readFrameInner bytes = (.error .endOfStream, []) := by
  rw [hbytes, readFrameInner_toLeBytes, UInt32.ofNat_toNat, FrameCodec.readBody, if_neg hn.1,
    h.limit, if_neg hn.2, takeBytes_short hrest]

theorem prefix_ne_nil {n : Nat} {rest : Bytes} (h : bytes = toLeBytes 4 n ++ rest) : bytes ≠ [] := by
  rintro rfl
  have hlength := congrArg List.length h
  rw [List.length_append, length_toLeBytes, List.length_nil] at hlength
  omega

theorem follows_reset {source : List Delivery} {buf : Bytes} {filled : Nat}
    (h : Follows codec r ds bytes) (hsource : Healthy source) :
    Follows codec (FrameReader.reset { r with buf := buf, filled := filled }) source
      (bytesOf source) :=
  ⟨h.limit, h.permissive, h.known, hsource, length_resize 4 _, Nat.zero_lt_succ 3, rfl⟩

theorem answers_takeBody {n : UInt32} (h : Follows codec r ds bytes) (hstate : r.state = .body n) :
    Answers codec bytes (size ds) (r.takeBody n ds) := by
  have hposition := h.position
  simp only [Position, hstate] at hposition
  obtain ⟨hn, hlen, hlt, hbytes⟩ := hposition
  rw [← hlen] at hlt
  have hf : Fills r.buf r.filled ds _ := fills_readInto (Nat.le_of_lt hlt)
  unfold FrameReader.takeBody
  generalize readInto r.buf r.filled ds = got at hf ⊢
  obtain ⟨progress, buf, filled, source⟩ := got
  rw [← hf.stream] at hbytes
  have hlength : buf.length = r.buf.length := hf.length
  have hnext := hlength.trans hlen
  cases progress with
  | error e => exact absurd rfl (hf.error h.healthy e)
  | wouldBlock =>
    have hroom := hf.wouldBlock rfl
    refine ⟨⟨h.limit, h.permissive, h.known, (hf.healthy h.healthy), ?_⟩, hf.less hlt nofun⟩
    simp only [Position, hstate]
    exact ⟨hn, hnext, hlen ▸ hroom, hbytes⟩
  | eof =>
    obtain ⟨hroom, rfl⟩ := hf.eof rfl
    have hshort : (buf.take filled ++ bytesOf []).length < n.toNat := by
      rw [List.length_append, List.length_take, ← hlen]
      exact Nat.lt_of_le_of_lt (Nat.min_le_left _ _) hroom
    exact ⟨_, _, readFrameInner_cut h hn hshort hbytes, rfl,
      fun hnil => absurd hnil (prefix_ne_nil hbytes)⟩
  | complete =>
    have hall : buf.take filled = buf :=
      List.take_of_length_le (Nat.le_of_eq (hlength.trans (hf.complete rfl).symm))
    have hless := hf.less hlt nofun
    rw [hall] at hbytes
    have hread := readFrameInner_whole h hn hnext hbytes
    rw [acceptBody_follows h] at hread
    have hbody : buf.take n.toNat = buf := List.take_of_length_le (Nat.le_of_eq hnext)
    dsimp only at hread ⊢
    rw [hbody]
    split at hread
    · next habort =>
      rw [if_pos habort]
      exact ⟨_, hread, follows_reset h (hf.healthy h.healthy), hless⟩
    · next habort =>
      rw [if_neg habort]
      split at hread
      · next hservice =>
        rw [if_pos hservice]
        exact ⟨_, _, hread, rfl, fun hnil => absurd hnil (prefix_ne_nil hbytes)⟩
      · next hservice =>
        rw [if_neg hservice]
        exact ⟨_, hread, follows_reset h (hf.healthy h.healthy), hless⟩

theorem toLeBytes_prefix {buf : Bytes} (h : buf.length = 4) :
    toLeBytes 4 (UInt32.ofNat (fromLeBytes buf)).toNat = buf := by
  have hsmall := fromLeBytes_lt buf
  rw [h] at hsmall
  rw [UInt32.toNat_ofNat_of_lt' hsmall]
  exact h ▸ toLeBytes_fromLeBytes buf

theorem answers_takeLength (h : Follows codec r ds bytes) (hstate : r.state = .length) :
    Answers codec bytes (size ds) (r.takeLength ds) := by
  have hposition := h.position
  simp only [Position, hstate] at hposition
  obtain ⟨hlen, hlt, hbytes⟩ := hposition
  rw [← hlen] at hlt
  have hf : Fills r.buf r.filled ds _ := fills_readInto (Nat.le_of_lt hlt)
  unfold FrameReader.takeLength
  generalize readInto r.buf r.filled ds = got at hf ⊢
  obtain ⟨progress, buf, filled, source⟩ := got
  rw [← hf.stream] at hbytes
  have hlength : buf.length = r.buf.length := hf.length
  have hnext := hlength.trans hlen
  cases progress with
  | error e => exact absurd rfl (hf.error h.healthy e)
  | wouldBlock =>
    have hroom := hf.wouldBlock rfl
    refine ⟨⟨h.limit, h.permissive, h.known, hf.healthy h.healthy, ?_⟩, hf.less hlt ?_⟩
    swap
    · intro heof
      cases heof
    simp only [Position, hstate]
    exact ⟨hnext, hlen ▸ hroom, hbytes⟩
  | eof =>
    obtain ⟨hroom, rfl⟩ := hf.eof rfl
    replace hroom : filled < r.buf.length := hroom
    have hleft : bytes.length = filled := by
      rw [hbytes, List.length_append, List.length_take]
      show min filled buf.length + 0 = filled
      omega
    have hread : codec.readFrameInner bytes = (.error .endOfStream, []) := by
      rw [FrameCodec.readFrameInner, takeBytes_short (by omega)]
    dsimp only
    split
    · exact ⟨_, _, hread, rfl, fun _ => rfl⟩
    · next hfilled =>
      refine ⟨_, _, hread, rfl, fun hnil => absurd ?_ hfilled⟩
      rw [← hleft, hnil, List.length_nil]
  | complete =>
    have hall : buf.take filled = buf :=
      List.take_of_length_le (Nat.le_of_eq (hlength.trans (hf.complete rfl).symm))
    have hfour : buf.take 4 = buf := List.take_of_length_le (Nat.le_of_eq hnext)
    have hless := hf.less hlt fun heof => by cases heof
    rw [hall, ← toLeBytes_prefix hnext] at hbytes
    have hne := prefix_ne_nil hbytes
    have hread : codec.readFrameInner bytes =
        codec.readBody (UInt32.ofNat (fromLeBytes buf)) (bytesOf source) := by
      rw [hbytes, readFrameInner_toLeBytes, UInt32.ofNat_toNat]
    rw [FrameCodec.readBody, h.limit] at hread
    dsimp only
    rw [hfour]
    by_cases hshort : UInt32.ofNat (fromLeBytes buf) < 2
    · rw [if_pos hshort] at hread ⊢
      exact ⟨_, _, hread, rfl, fun hnil => absurd hnil hne⟩
    rw [if_neg hshort] at hread ⊢
    by_cases hlong : r.maxMessageSize < UInt32.ofNat (fromLeBytes buf)
    · rw [if_pos hlong] at hread ⊢
      exact ⟨_, _, hread, rfl, fun hnil => absurd hnil hne⟩
    rw [if_neg hlong]
    have hpositive : 0 < (UInt32.ofNat (fromLeBytes buf)).toNat := by
      rw [UInt32.lt_iff_toNat_lt] at hshort
      have htwo : (2 : UInt32).toNat = 2 := rfl
      omega
    apply Answers.mono (Nat.le_of_lt hless)
    refine answers_takeBody ⟨h.limit, h.permissive, h.known, (hf.healthy h.healthy), ?_⟩ rfl
    exact ⟨⟨hshort, hlong⟩, length_resize _ _, hpositive, hbytes⟩

theorem answers_tryReadFrame (h : Follows codec r ds bytes) :
    Answers codec bytes (size ds) (r.tryReadFrame ds) := by
  cases hstate : r.state with
  | length =>
    have hanswers := answers_takeLength h hstate
    rwa [FrameReader.tryReadFrame, hstate]
  | body n =>
    have hanswers := answers_takeBody h hstate
    rwa [FrameReader.tryReadFrame, hstate]

theorem length_readFrameInner {frame : Frame} {rest : Bytes}
    (h : codec.readFrameInner bytes = (.ok frame, rest)) : rest.length < bytes.length := by
  unfold FrameCodec.readFrameInner takeBytes at h
  by_cases hfour : 4 ≤ bytes.length
  · rw [if_pos hfour] at h
    dsimp only [FrameCodec.readBody] at h
    split at h
    · cases h
    split at h
    · cases h
    unfold takeBytes at h
    by_cases hbody : (UInt32.ofNat (fromLeBytes (bytes.take 4))).toNat ≤ (bytes.drop 4).length
    · rw [if_pos hbody] at h
      have hrest := congrArg Prod.snd h
      dsimp only at hrest
      rw [← hrest, List.length_drop, List.length_drop]
      omega
    · rw [if_neg hbody] at h
      cases h
  · rw [if_neg hfour] at h
    cases h

theorem pollAll_readAll (hfresh : codec.poisoned = false) (h : Follows codec r ds bytes)
    {calls fuel : Nat} (hcalls : size ds < calls) (hfuel : bytes.length < fuel) :
    ∃ frames e e' left, r.pollAll calls ds = (frames, some e) ∧
      FrameCodec.readAll fuel codec bytes = (frames, some (e', left)) ∧
      e.forgetText = e'.forgetText ∧ (left = [] → e = FrameReader.closed) := by
  induction calls generalizing r ds bytes fuel with
  | zero => omega
  | succ calls ih =>
    have hanswers := answers_tryReadFrame h
    unfold FrameReader.pollAll
    generalize r.tryReadFrame ds = answer at hanswers ⊢
    obtain ⟨result, r', ds'⟩ := answer
    cases fuel with
    | zero => omega
    | succ fuel =>
    cases result with
    | error e =>
      obtain ⟨e', rest, hread, htext, hclosed⟩ := hanswers
      refine ⟨[], e, e', bytes, rfl, ?_, htext, hclosed⟩
      simp [FrameCodec.readAll, FrameCodec.readFrame, hfresh, hread]
    | ok frame =>
      cases frame with
      | none =>
        obtain ⟨hfollows, hless⟩ := hanswers
        exact ih hfollows (by omega) hfuel
      | some frame =>
        obtain ⟨rest, hread, hfollows, hless⟩ := hanswers
        have hshorter := length_readFrameInner hread
        obtain ⟨frames, e, e', left, hpoll, hall, hend⟩ :=
          ih hfollows (by omega) (show rest.length < fuel by omega)
        refine ⟨frame :: frames, e, e', left, by simp only [hpoll], ?_, hend⟩
        simp [FrameCodec.readAll, FrameCodec.readFrame, hfresh, hread, hall]

end Simulation

/-- However a stream is delivered, the non-blocking reader gives the frames that
the blocking codec reads from the whole of it, and then the same error. -/
theorem decoders_agree (max : UInt32) (permissive : Bool) (ds : List Delivery) (hds : Healthy ds)
    (calls fuel : Nat) (hcalls : size ds < calls) (hfuel : (bytesOf ds).length < fuel) :
    ∃ frames e e' left,
      (FrameReader.new max permissive).pollAll calls ds = (frames, some e) ∧
      FrameCodec.readAll fuel (if permissive then .newPermissive max else .new max) (bytesOf ds) =
        (frames, some (e', left)) ∧
      e.forgetText = e'.forgetText := by
  have hfresh : (if permissive then FrameCodec.newPermissive max else .new max).poisoned = false := by
    cases permissive <;> rfl
  obtain ⟨frames, e, e', left, hpoll, hall, htext, -⟩ :=
    pollAll_readAll hfresh (follows_new max permissive hds) hcalls hfuel
  exact ⟨frames, e, e', left, hpoll, hall, htext⟩

def pieces : List Delivery :=
  [.chunk 3 [0], .wouldBlock, .chunk 0 [0, 0], .interrupted, .chunk 0 [7, 2, 0, 0, 0, 5], .wouldBlock,
    .chunk 0 []]

theorem decoders_agree_on_pieces :
    Healthy pieces ∧
    ∃ e, (FrameReader.new 16 false).pollAll 17 pieces = ([.message 0 [7]], some e) ∧
      e.forgetText = .unknownService 5 := by
  have hds : Healthy pieces := by
    intro e he
    simp [pieces] at he
  obtain ⟨frames, e, e', left, hpoll, hall, htext⟩ :=
    decoders_agree 16 false pieces hds 17 14 (by decide) (by decide)
  have hexpected : FrameCodec.readAll 14 (.new 16) (bytesOf pieces) =
      ([.message 0 [7]], some (.unknownService 5, [2, 0, 0, 0, 5, 0])) := by decide +kernel
  obtain ⟨rfl, hend⟩ := Prod.mk.inj (hall.symm.trans hexpected)
  obtain ⟨rfl, rfl⟩ := Prod.mk.inj (Option.some.inj hend)
  exact ⟨hds, e, hpoll, htext⟩

end Pane.DecoderAgreement
