import Mathlib.Algebra.Group.Nat.Defs
import Mathlib.Data.List.Basic

namespace Pane.Serialization

/-- A writer and a reader that takes back exactly what was written, whatever
follows it. -/
structure Codec (α : Type) where
  encode : α → List UInt8
  decode : List UInt8 → Option (α × List UInt8)
  decode_encode : ∀ a rest, decode (encode a ++ rest) = some (a, rest)

attribute [simp] Codec.decode_encode

variable {α β : Type}

def encodeVarint : Nat → Nat → List UInt8
  | 0, n => [UInt8.ofNat n]
  | fuel + 1, n =>
    if n < 128 then [UInt8.ofNat n]
    else UInt8.ofNat (n % 128 + 128) :: encodeVarint fuel (n / 128)

def decodeVarint : List UInt8 → Option (Nat × List UInt8)
  | [] => none
  | b :: rest =>
    if b.toNat < 128 then some (b.toNat, rest)
    else (decodeVarint rest).map (fun p => (b.toNat - 128 + 128 * p.1, p.2))

theorem decodeVarint_last {n : Nat} (h : n < 128) (rest : List UInt8) :
    decodeVarint (UInt8.ofNat n :: rest) = some (n, rest) := by
  have hn : (UInt8.ofNat n).toNat = n := UInt8.toNat_ofNat_of_lt' (by show n < 256; omega)
  simp [decodeVarint, hn, h]

theorem decodeVarint_encodeVarint (fuel n : Nat) (h : n ≤ fuel) (rest : List UInt8) :
    decodeVarint (encodeVarint fuel n ++ rest) = some (n, rest) := by
  induction fuel generalizing n with
  | zero =>
    obtain rfl : n = 0 := by omega
    exact decodeVarint_last (by omega) rest
  | succ fuel ih =>
    unfold encodeVarint
    split
    · next hn => exact decodeVarint_last hn rest
    · next hn =>
      have hb : (UInt8.ofNat (n % 128 + 128)).toNat = n % 128 + 128 :=
        UInt8.toNat_ofNat_of_lt' (by show n % 128 + 128 < 256; omega)
      rw [List.cons_append, decodeVarint, hb, if_neg (by omega), ih (n / 128) (by omega)]
      simp only [Option.map_some, Option.some.injEq, Prod.mk.injEq, and_true]
      omega

theorem length_encodeVarint (fuel : Nat) {n k : Nat} (h : n < 128 ^ (k + 1)) :
    (encodeVarint fuel n).length ≤ k + 1 := by
  induction k generalizing fuel n with
  | zero =>
    cases fuel with
    | zero => exact Nat.le_refl 1
    | succ fuel =>
      rw [encodeVarint, if_pos (by omega)]
      exact Nat.le_refl 1
  | succ k ih =>
    cases fuel with
    | zero => exact Nat.le_add_left 1 _
    | succ fuel =>
      rw [encodeVarint]
      split
      · exact Nat.le_add_left 1 _
      · rw [Nat.pow_succ] at h
        exact Nat.succ_le_succ (ih fuel (Nat.div_lt_of_lt_mul (by omega)))

def varint : Codec Nat where
  encode n := encodeVarint n n
  decode := decodeVarint
  decode_encode n := decodeVarint_encodeVarint n n (Nat.le_refl n)

def pair (a : Codec α) (b : Codec β) : Codec (α × β) where
  encode p := a.encode p.1 ++ b.encode p.2
  decode bytes := (a.decode bytes).bind (fun p => (b.decode p.2).map (fun q => ((p.1, q.1), q.2)))
  decode_encode := by
    intro p rest
    simp

def convert (c : Codec α) (read : α → Option β) (write : β → α)
    (h : ∀ b, read (write b) = some b) : Codec β where
  encode b := c.encode (write b)
  decode bytes := (c.decode bytes).bind (fun p => (read p.1).map (fun b => (b, p.2)))
  decode_encode := by
    intro b rest
    simp [h]

def takeBytes (n : Nat) (bytes : List UInt8) : Option (List UInt8 × List UInt8) :=
  if n ≤ bytes.length then some (bytes.take n, bytes.drop n) else none

def lengthPrefixed : Codec (List UInt8) where
  encode bytes := varint.encode bytes.length ++ bytes
  decode bytes := (varint.decode bytes).bind (fun p => takeBytes p.1 p.2)
  decode_encode := by
    intro bytes rest
    simp [takeBytes]

def tagged (tagOf : β → Nat) (body : β → List UInt8)
    (read : Nat → List UInt8 → Option (β × List UInt8))
    (h : ∀ b rest, read (tagOf b) (body b ++ rest) = some (b, rest)) : Codec β where
  encode b := varint.encode (tagOf b) ++ body b
  decode bytes := (varint.decode bytes).bind (fun p => read p.1 p.2)
  decode_encode := by
    intro b rest
    simp [h]

def toLeBytes : Nat → Nat → List UInt8
  | 0, _ => []
  | width + 1, n => UInt8.ofNat n :: toLeBytes width (n / 256)

def fromLeBytes : List UInt8 → Nat
  | [] => 0
  | b :: bs => b.toNat + 256 * fromLeBytes bs

@[simp] theorem length_toLeBytes (width n : Nat) : (toLeBytes width n).length = width := by
  induction width generalizing n with
  | zero => rfl
  | succ width ih => rw [toLeBytes, List.length_cons, ih]

theorem fromLeBytes_lt (bs : List UInt8) : fromLeBytes bs < 256 ^ bs.length := by
  induction bs with
  | nil => exact Nat.one_pos
  | cons b bs ih =>
    have hb : b.toNat < 256 := b.toNat_lt
    rw [fromLeBytes, List.length_cons, Nat.pow_succ']
    omega

theorem fromLeBytes_toLeBytes (width n : Nat) :
    fromLeBytes (toLeBytes width n) = n % 256 ^ width := by
  induction width generalizing n with
  | zero => rw [toLeBytes, fromLeBytes, Nat.pow_zero, Nat.mod_one]
  | succ width ih =>
    have hb : (UInt8.ofNat n).toNat = n % 256 := UInt8.toNat_ofNat'
    rw [toLeBytes, fromLeBytes, ih, hb, Nat.pow_succ', Nat.mod_mul]

theorem toLeBytes_fromLeBytes (bs : List UInt8) : toLeBytes bs.length (fromLeBytes bs) = bs := by
  induction bs with
  | nil => rfl
  | cons b bs ih =>
    have hlt : b.toNat < 256 := b.toNat_lt
    have hb : UInt8.ofNat (b.toNat + 256 * fromLeBytes bs) = b := by
      apply UInt8.toNat_inj.mp
      rw [UInt8.toNat_ofNat']
      omega
    have hbs : (b.toNat + 256 * fromLeBytes bs) / 256 = fromLeBytes bs := by omega
    rw [List.length_cons, fromLeBytes, toLeBytes, hb, hbs, ih]

end Pane.Serialization
