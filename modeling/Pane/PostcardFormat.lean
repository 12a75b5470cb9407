import Pane.Messages
import Pane.Serialization

namespace Pane.PostcardFormat

open Pane.Messages Pane.Serialization

def uint16 : Codec UInt16 :=
  convert varint (fun n => if n < 65536 then some (UInt16.ofNat n) else none) UInt16.toNat
    (fun b => by simp [b.toNat_lt])

def uint32 : Codec UInt32 :=
  convert varint (fun n => if n < 4294967296 then some (UInt32.ofNat n) else none) UInt32.toNat
    (fun b => by simp [b.toNat_lt])

def uint64 : Codec UInt64 :=
  convert varint (fun n => if n < 18446744073709551616 then some (UInt64.ofNat n) else none)
    UInt64.toNat (fun b => by simp [b.toNat_lt])

def uuid : Codec Uuid :=
  convert lengthPrefixed (fun l => if h : l.length = 16 then some ⟨l, h⟩ else none) Subtype.val
    (fun b => by simp [b.2])

def address : Codec Address :=
  convert (pair uint64 uint64) (fun p => some ⟨p.1, p.2⟩) (fun a => (a.paneId, a.serverId))
    (fun _ => rfl)

def exitReason : Codec ExitReason :=
  convert varint
    (fun | 0 => some .graceful | 1 => some .disconnected | 2 => some .failed
         | 3 => some .infraError | _ => none)
    (fun | .graceful => 0 | .disconnected => 1 | .failed => 2 | .infraError => 3)
    (fun b => by cases b <;> rfl)

def declineReason : Codec DeclineReason :=
  convert varint
    (fun | 0 => some .versionMismatch | 1 => some .serviceUnknown | 2 => some .selfProvide
         | 3 => some .sessionExhausted | _ => none)
    (fun | .versionMismatch => 0 | .serviceUnknown => 1 | .selfProvide => 2
         | .sessionExhausted => 3)
    (fun b => by cases b <;> rfl)

def teardownReason : Codec TeardownReason :=
  convert varint (fun | 0 => some .serviceRevoked | 1 => some .connectionLost | _ => none)
    (fun | .serviceRevoked => 0 | .connectionLost => 1) (fun b => by cases b <;> rfl)

def exited : Codec (Address × ExitReason) := pair address exitReason

def lifecycleMessage : Codec LifecycleMessage :=
  tagged
    (fun | .ready => 0 | .closeRequested => 1 | .disconnected => 2 | .pulse => 3
         | .paneExited _ _ => 4)
    (fun | .paneExited a r => exited.encode (a, r) | _ => [])
    (fun
      | 0, b => some (.ready, b)
      | 1, b => some (.closeRequested, b)
      | 2, b => some (.disconnected, b)
      | 3, b => some (.pulse, b)
      | 4, b => (exited.decode b).map (fun p => (.paneExited p.1.1 p.1.2, p.2))
      | _, _ => none)
    (fun m rest => by cases m <;> simp)

def accepted : Codec (Uuid × UInt16 × UInt32) := pair uuid (pair uint16 uint32)

def controlMessage : Codec ControlMessage :=
  tagged
    (fun | .lifecycle _ => 0 | .declareInterest _ _ => 1 | .interestAccepted _ _ _ => 2
         | .interestDeclined _ _ => 3 | .serviceTeardown _ _ => 4 | .revokeInterest _ => 5
         | .cancel _ => 6 | .watch _ => 7 | .unwatch _ => 8 | .paneExited _ _ => 9)
    (fun
      | .lifecycle m => lifecycleMessage.encode m
      | .declareInterest u v => (pair uuid uint32).encode (u, v)
      | .interestAccepted u s v => accepted.encode (u, s, v)
      | .interestDeclined u r => (pair uuid declineReason).encode (u, r)
      | .serviceTeardown s r => (pair uint16 teardownReason).encode (s, r)
      | .revokeInterest s => uint16.encode s
      | .cancel t => varint.encode t
      | .watch a => address.encode a
      | .unwatch a => address.encode a
      | .paneExited a r => exited.encode (a, r))
    (fun
      | 0, b => (lifecycleMessage.decode b).map (fun p => (.lifecycle p.1, p.2))
      | 1, b => ((pair uuid uint32).decode b).map (fun p => (.declareInterest p.1.1 p.1.2, p.2))
      | 2, b => (accepted.decode b).map (fun p => (.interestAccepted p.1.1 p.1.2.1 p.1.2.2, p.2))
      | 3, b => ((pair uuid declineReason).decode b).map
          (fun p => (.interestDeclined p.1.1 p.1.2, p.2))
      | 4, b => ((pair uint16 teardownReason).decode b).map
          (fun p => (.serviceTeardown p.1.1 p.1.2, p.2))
      | 5, b => (uint16.decode b).map (fun p => (.revokeInterest p.1, p.2))
      | 6, b => (varint.decode b).map (fun p => (.cancel p.1, p.2))
      | 7, b => (address.decode b).map (fun p => (.watch p.1, p.2))
      | 8, b => (address.decode b).map (fun p => (.unwatch p.1, p.2))
      | 9, b => (exited.decode b).map (fun p => (.paneExited p.1.1 p.1.2, p.2))
      | _, _ => none)
    (fun m rest => by cases m <;> simp)

def serviceFrame : Codec ServiceFrame :=
  tagged
    (fun | .request _ _ => 0 | .reply _ _ => 1 | .failed _ => 2 | .notification _ => 3)
    (fun
      | .request t p => (pair varint lengthPrefixed).encode (t, p)
      | .reply t p => (pair varint lengthPrefixed).encode (t, p)
      | .failed t => varint.encode t
      | .notification p => lengthPrefixed.encode p)
    (fun
      | 0, b => ((pair varint lengthPrefixed).decode b).map (fun p => (.request p.1.1 p.1.2, p.2))
      | 1, b => ((pair varint lengthPrefixed).decode b).map (fun p => (.reply p.1.1 p.1.2, p.2))
      | 2, b => (varint.decode b).map (fun p => (.failed p.1, p.2))
      | 3, b => (lengthPrefixed.decode b).map (fun p => (.notification p.1, p.2))
      | _, _ => none)
    (fun m rest => by cases m <;> simp)

/-- The postcard format at the two message types. Reading ignores what follows
a complete message. -/
def postcard : Postcard where
  controlFromBytes b := (controlMessage.decode b).map Prod.fst
  controlToAllocvec m := some (controlMessage.encode m)
  frameFromBytes b := (serviceFrame.decode b).map Prod.fst
  frameToAllocvec f := some (serviceFrame.encode f)

theorem postcard_control : postcard.ControlRoundTrip := by
  intro m
  refine ⟨_, rfl, ?_⟩
  have h := controlMessage.decode_encode m []
  rw [List.append_nil] at h
  simp [postcard, h]

theorem postcard_frame : postcard.FrameRoundTrip := by
  intro f
  refine ⟨_, rfl, ?_⟩
  have h := serviceFrame.decode_encode f []
  rw [List.append_nil] at h
  simp [postcard, h]

end Pane.PostcardFormat
