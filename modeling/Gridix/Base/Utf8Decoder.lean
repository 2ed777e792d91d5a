import Mathlib.Data.List.Basic
import Mathlib.Tactic.SplitIfs

/-!
# Decoding UTF-8 that arrives in pieces

The decoder of the Encoding Standard, with replacement characters for what is
malformed.
-/

namespace Utf8

open List

structure Decoder where
  codePoint : Nat := 0
  needed : Nat := 0
  seen : Nat := 0
  lower : Nat := 0x80
  upper : Nat := 0xbf
  bomSeen : Bool := false
  deriving DecidableEq

def replacement : Char := Char.ofNat 0xfffd

namespace Decoder

def reset (decoder : Decoder) : Decoder := { bomSeen := decoder.bomSeen }

def begin (decoder : Decoder) (byte : Nat) : Decoder × List Char :=
  let idle := decoder.reset
  if byte ≤ 0x7f then (idle, [Char.ofNat byte])
  else if 0xc2 ≤ byte ∧ byte ≤ 0xdf then
    ({ idle with needed := 1, codePoint := byte - 0xc0 }, [])
  else if 0xe0 ≤ byte ∧ byte ≤ 0xef then
    ({ idle with
        needed := 2
        codePoint := byte - 0xe0
        lower := if byte = 0xe0 then 0xa0 else 0x80
        upper := if byte = 0xed then 0x9f else 0xbf }, [])
  else if 0xf0 ≤ byte ∧ byte ≤ 0xf4 then
    ({ idle with
        needed := 3
        codePoint := byte - 0xf0
        lower := if byte = 0xf0 then 0x90 else 0x80
        upper := if byte = 0xf4 then 0x8f else 0xbf }, [])
  else (idle, [replacement])

/-- The next byte.  One that does not continue the sequence is read again. -/
def next (decoder : Decoder) (byte : Nat) : Decoder × List Char :=
  if decoder.needed = 0 then decoder.begin byte
  else if byte < decoder.lower ∨ decoder.upper < byte then
    ((decoder.begin byte).1, replacement :: (decoder.begin byte).2)
  else
    let codePoint := decoder.codePoint * 64 + (byte - 0x80)
    if decoder.seen + 1 = decoder.needed then
      (decoder.reset, [Char.ofNat codePoint])
    else
      ({ decoder with
          codePoint := codePoint
          seen := decoder.seen + 1
          lower := 0x80
          upper := 0xbf }, [])

def pass (decoder : Decoder) : List Char → Decoder × List Char
  | [] => (decoder, [])
  | char :: chars =>
    if decoder.bomSeen then (decoder, char :: chars)
    else
      ({ decoder with bomSeen := true },
        if char = Char.ofNat 0xfeff then chars else char :: chars)

def step (decoder : Decoder) (byte : UInt8) : Decoder × List Char :=
  (decoder.next byte.toNat).1.pass (decoder.next byte.toNat).2

/-- `decoder.decode(bytes, {stream: true})`. -/
def decode (decoder : Decoder) : List UInt8 → Decoder × List Char
  | [] => (decoder, [])
  | byte :: bytes =>
    let later := (decoder.step byte).1.decode bytes
    (later.1, (decoder.step byte).2 ++ later.2)

theorem step_ascii {decoder : Decoder} (idle : decoder.needed = 0)
    {byte : UInt8} (small : byte.toNat < 0x80) :
    (decoder.step byte).1.needed = 0 ∧ (decoder.step byte).2 = [Char.ofNat byte.toNat] := by
  have begun : decoder.next byte.toNat = (decoder.reset, [Char.ofNat byte.toNat]) := by
    rw [next, if_pos idle, begin, if_pos (by omega)]
  have notMark : Char.ofNat byte.toNat ≠ Char.ofNat 0xfeff := by
    have all : ∀ code : Fin 0x80, Char.ofNat code ≠ Char.ofNat 0xfeff := by decide
    exact all ⟨byte.toNat, small⟩
  rw [step, begun]
  simp only [pass]
  split_ifs <;> exact ⟨rfl, rfl⟩

theorem decode_ascii {decoder : Decoder} (idle : decoder.needed = 0)
    {bytes : List UInt8} (small : ∀ byte ∈ bytes, byte.toNat < 0x80) :
    (decoder.decode bytes).1.needed = 0 ∧ (decoder.decode bytes).2 =
        bytes.map fun byte => Char.ofNat byte.toNat := by
  induction bytes generalizing decoder with
  | nil => exact ⟨idle, rfl⟩
  | cons byte _ ih =>
    obtain ⟨stays, char⟩ := step_ascii idle (small byte mem_cons_self)
    obtain ⟨ends, chars⟩ := ih stays fun other mem =>
      small other (mem_cons_of_mem _ mem)
    refine ⟨ends, ?_⟩
    simp only [decode, char, chars]
    rfl

end Decoder

/-- `text.encode("utf-8")`. -/
def encode (text : List Char) : List UInt8 := text.flatMap String.utf8EncodeChar

variable {char : Char} {text : List Char}

theorem utf8EncodeChar_ascii (small : char.toNat < 0x80) :
    String.utf8EncodeChar char = [UInt8.ofNat char.toNat] := by
  have code : char.val.toNat ≤ 0x7f := by
    have same : char.val.toNat = char.toNat := rfl
    omega
  rw [String.utf8EncodeChar]
  simp only [code]
  rfl

theorem encode_ascii (plain : ∀ char ∈ text, char.toNat < 0x80) :
    encode text = text.map fun char => UInt8.ofNat char.toNat := by
  induction text with
  | nil => rfl
  | cons char _ ih =>
    have small := plain char mem_cons_self
    rw [encode, flatMap_cons, utf8EncodeChar_ascii small]
    exact congrArg (UInt8.ofNat char.toNat :: ·) (ih fun other mem =>
        plain other (mem_cons_of_mem _ mem))

theorem toNat_byte (small : char.toNat < 0x80) : (UInt8.ofNat char.toNat).toNat = char.toNat := by
  exact Nat.mod_eq_of_lt (by omega)

theorem encode_small (plain : ∀ char ∈ text, char.toNat < 0x80) :
    ∀ byte ∈ encode text, byte.toNat < 0x80 := by
  intro _ mem
  rw [encode_ascii plain] at mem
  obtain ⟨char, here, rfl⟩ := mem_map.mp mem
  rw [toNat_byte (plain char here)]
  exact plain char here

theorem chars_encode (plain : ∀ char ∈ text, char.toNat < 0x80) :
    (encode text).map (fun byte => Char.ofNat byte.toNat) = text := by
  rw [encode_ascii plain, map_map]
  calc text.map _ = text.map id :=
        map_congr_left fun char mem => by
          rw [Function.comp_apply, toNat_byte (plain char mem)]
          exact Char.ofNat_toNat char
    _ = text := map_id text

end Utf8
