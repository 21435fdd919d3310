import Rota.Text.Utf8

/-!
# Texts as UTF-8, and back

The bytes of a text are read as this text (`decodeLossy_encode`), by the reader that
takes anything just as by the one that takes nothing else (`decode?_encode`).

The proof goes character by character: the reader, when nothing is begun, takes the bytes
of a character for this character (`foldl_utf8EncodeChar`). A first byte leaves the reader
with the bits it holds and with the range of the second byte, which is narrower than that
of the others where it keeps out what is no character.
-/

namespace Rota.Text

namespace Decoding

variable {read : List Char}

/-- A byte that continues a character, with more to come. -/
theorem step_continue {owed low high bits b : Nat} (hb : b < 256) (hlow : low ≤ b)
    (hhigh : b ≤ high) :
    step ⟨read, some ⟨owed + 2, low, high, bits⟩⟩ (.ofNat b)
      = ⟨read, some ⟨owed + 1, 0x80, 0xBF, bits * 0x40 + b % 0x40⟩⟩ := by
  unfold step
  dsimp only
  rw [UInt8.toNat_ofNat_of_lt' hb, if_pos ⟨hlow, hhigh⟩]
  rfl

/-- The last byte of a character. -/
theorem step_last {low high bits b : Nat} (hb : b < 256) (hlow : low ≤ b) (hhigh : b ≤ high) :
    step ⟨read, some ⟨1, low, high, bits⟩⟩ (.ofNat b)
      = ⟨Char.ofNat (bits * 0x40 + b % 0x40) :: read, none⟩ := by
  unfold step
  dsimp only
  rw [UInt8.toNat_ofNat_of_lt' hb, if_pos ⟨hlow, hhigh⟩]
  rfl

theorem step_begin {b : Nat} (hb : b < 256) : step ⟨read, none⟩ (.ofNat b) = begin read b := by
  unfold step
  dsimp only
  rw [UInt8.toNat_ofNat_of_lt' hb]

/-- The first of two bytes. -/
theorem begin_two {v : Nat} (hlow : 0x80 ≤ v) (hhigh : v ≤ 0x7FF) :
    begin read (v / 64 % 32 + 192) = ⟨read, some ⟨1, 0x80, 0xBF, v / 64⟩⟩ := by
  unfold begin
  rw [if_neg (by omega), if_pos (by omega)]
  have hbits : (v / 64 % 32 + 192) % 0x20 = v / 64 := by
    omega
  rw [hbits]

/-- The first of three bytes. The second one is in the range for which it asks, since no
character is a surrogate. -/
theorem begin_three {v : Nat} (hlow : 0x800 ≤ v) (hhigh : v ≤ 0xFFFF)
    (valid : v < 0xD800 ∨ 0xDFFF < v) :
    ∃ low high, begin read (v / 4096 % 16 + 224) = ⟨read, some ⟨2, low, high, v / 4096⟩⟩
      ∧ low ≤ v / 64 % 64 + 128 ∧ v / 64 % 64 + 128 ≤ high := by
  unfold begin
  rw [if_neg (by omega), if_neg (by omega)]
  split
  · next hfirst => exact ⟨_, _, by rw [show v / 4096 = 0 by omega], by omega, by omega⟩
  · split
    · next hfirst => exact ⟨_, _, by rw [show v / 4096 = 0xD by omega], by omega, by omega⟩
    · rw [if_pos (by omega)]
      refine ⟨0x80, 0xBF, ?_, by omega, by omega⟩
      rw [show (v / 4096 % 16 + 224) % 0x10 = v / 4096 by omega]

/-- The first of four bytes. The second one is in the range for which it asks, since there
is a last character. -/
theorem begin_four {v : Nat} (hlow : 0x10000 ≤ v) (hhigh : v < 0x110000) :
    ∃ low high, begin read (v / 262144 % 8 + 240) = ⟨read, some ⟨3, low, high, v / 262144⟩⟩
      ∧ low ≤ v / 4096 % 64 + 128 ∧ v / 4096 % 64 + 128 ≤ high := by
  unfold begin
  rw [if_neg (by omega), if_neg (by omega), if_neg (by omega), if_neg (by omega),
    if_neg (by omega)]
  split
  · next hfirst => exact ⟨_, _, by rw [show v / 262144 = 0 by omega], by omega, by omega⟩
  · split
    · next hfirst => exact ⟨_, _, by rw [show v / 262144 = 4 by omega], by omega, by omega⟩
    · rw [if_pos (by omega)]
      refine ⟨0x80, 0xBF, ?_, by omega, by omega⟩
      rw [show (v / 262144 % 8 + 240) % 8 = v / 262144 by omega]

/-- **The bytes of a character** are read as this character. -/
theorem foldl_utf8EncodeChar (read : List Char) (c : Char) :
    (String.utf8EncodeChar c).foldl step { read } = { read := c :: read } := by
  have hvalid : c.toNat < 0xD800 ∨ 0xDFFF < c.toNat ∧ c.toNat < 0x110000 := c.valid
  have hsame : ∀ n, n = c.toNat → Char.ofNat n = c := by
    rintro _ rfl
    exact Char.ofNat_toNat c
  unfold String.utf8EncodeChar
  dsimp only
  rw [show c.val.toNat = c.toNat from rfl]
  split
  · next hone =>
    rw [List.foldl_cons, List.foldl_nil, step_begin (by omega)]
    unfold begin
    rw [if_pos (by omega), Char.ofNat_toNat]
  · split
    · next hone htwo =>
      rw [List.foldl_cons, List.foldl_cons, List.foldl_nil, step_begin (by omega),
        begin_two (by omega) htwo, step_last (by omega) (by omega) (by omega),
        hsame _ (by omega)]
    · split
      · next htwo hthree =>
        obtain ⟨low, high, hbegin, hlow, hhigh⟩ :=
          begin_three (by omega) hthree (hvalid.imp_right And.left)
        rw [List.foldl_cons, List.foldl_cons, List.foldl_cons, List.foldl_nil,
          step_begin (by omega), hbegin, step_continue (by omega) hlow hhigh,
          step_last (by omega) (by omega) (by omega), hsame _ (by omega)]
      · next hthree =>
        obtain ⟨low, high, hbegin, hlow, hhigh⟩ := begin_four (v := c.toNat) (by omega) (by omega)
        rw [List.foldl_cons, List.foldl_cons, List.foldl_cons, List.foldl_cons, List.foldl_nil,
          step_begin (by omega), hbegin, step_continue (by omega) hlow hhigh,
          step_continue (by omega) (by omega) (by omega),
          step_last (by omega) (by omega) (by omega), hsame _ (by omega)]

theorem foldl_encode (read : List Char) (text : List Char) :
    (encode text).foldl step { read } = { read := text.reverse ++ read } := by
  induction text generalizing read with
  | nil => rfl
  | cons c text ih =>
    have hencode : encode (c :: text) = String.utf8EncodeChar c ++ encode text := rfl
    rw [hencode, List.foldl_append, foldl_utf8EncodeChar, ih, List.reverse_cons,
      List.append_assoc, List.singleton_append]

end Decoding

/-- **The bytes of a text** are read as this text. -/
theorem decodeLossy_encode (text : List Char) : decodeLossy (encode text) = text := by
  unfold decodeLossy
  rw [Decoding.foldl_encode, List.append_nil]
  exact List.reverse_reverse text

/-- The bytes of a text are UTF-8. -/
theorem decode?_encode (text : List Char) : decode? (encode text) = some text := by
  unfold decode?
  rw [decodeLossy_encode]
  exact if_pos rfl

end Rota.Text
