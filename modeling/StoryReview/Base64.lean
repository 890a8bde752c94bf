import Mathlib.Data.List.DropRight

/-!
# Base64 with the URL-safe alphabet

Three bytes become four characters, a shorter last group is filled up with `=`.
The decoder skips whatever is not in an alphabet and stops at the padding. A text
whose padding was stripped can be padded again, since only the length decides it.
-/
namespace StoryReview.Base64

/-- The character of six bits. -/
def char (n : ℕ) : Char :=
  if n < 26 then .ofNat (65 + n)
  else if n < 52 then .ofNat (71 + n)
  else if n < 62 then .ofNat (n - 4)
  else if n = 62 then '-' else '_'

/-- The six bits of a character; both alphabets are read. -/
def sextet (c : Char) : Option ℕ :=
  if 65 ≤ c.toNat ∧ c.toNat ≤ 90 then some (c.toNat - 65)
  else if 97 ≤ c.toNat ∧ c.toNat ≤ 122 then some (c.toNat - 71)
  else if 48 ≤ c.toNat ∧ c.toNat ≤ 57 then some (c.toNat + 4)
  else if c = '-' ∨ c = '+' then some 62
  else if c = '_' ∨ c = '/' then some 63
  else none

def encode : List UInt8 → List Char
  | [] => []
  | [a] => [char (a.toNat / 4), char (a.toNat % 4 * 16), '=', '=']
  | [a, b] =>
      [char (a.toNat / 4), char (a.toNat % 4 * 16 + b.toNat / 16), char (b.toNat % 16 * 4), '=']
  | a :: b :: c :: rest =>
      char (a.toNat / 4) :: char (a.toNat % 4 * 16 + b.toNat / 16) ::
        char (b.toNat % 16 * 4 + c.toNat / 64) :: char (c.toNat % 64) :: encode rest

/-- `quad` characters of a group are read, `left` holds the bits they left over and
`pads` of the padding is seen. -/
def decodeFrom : (quad left pads : ℕ) → List Char → Option (List UInt8)
  | quad, _, _, [] => if quad = 0 then some [] else none
  | quad, left, pads, c :: cs =>
      if c = '=' then
        if quad < 2 then decodeFrom quad left pads cs
        else if 4 ≤ quad + (pads + 1) then some []
        else decodeFrom quad left (pads + 1) cs
      else
        match sextet c with
        | none => decodeFrom quad left pads cs
        | some n =>
            match quad with
            | 0 => decodeFrom 1 n 0 cs
            | 1 => (decodeFrom 2 (n % 16) 0 cs).map (UInt8.ofNat (left * 4 + n / 16) :: ·)
            | 2 => (decodeFrom 3 (n % 4) 0 cs).map (UInt8.ofNat (left * 16 + n / 4) :: ·)
            | _ => (decodeFrom 0 0 0 cs).map (UInt8.ofNat (left * 64 + n) :: ·)

def decode (cs : List Char) : Option (List UInt8) := decodeFrom 0 0 0 cs

def unpad (cs : List Char) : List Char := cs.rdropWhile (· = '=')

def repad (cs : List Char) : List Char :=
  cs ++ List.replicate (-(cs.length : ℤ) % 4).toNat '='

/-! ## Round trip -/

theorem sextet_char {n : ℕ} (hn : n < 64) : sextet (char n) = some n := by
  revert n
  decide

theorem char_ne_pad {n : ℕ} (hn : n < 64) : char n ≠ '=' := by
  revert n
  decide

section Steps
variable {n left pads : ℕ} {cs : List Char}

theorem decodeFrom_first (hn : n < 64) :
    decodeFrom 0 left pads (char n :: cs) = decodeFrom 1 n 0 cs := by
  rw [decodeFrom, if_neg (char_ne_pad hn), sextet_char hn]
  rfl

theorem decodeFrom_second (hn : n < 64) : decodeFrom 1 left pads (char n :: cs) =
    (decodeFrom 2 (n % 16) 0 cs).map (UInt8.ofNat (left * 4 + n / 16) :: ·) := by
  rw [decodeFrom, if_neg (char_ne_pad hn), sextet_char hn]
  rfl

theorem decodeFrom_third (hn : n < 64) : decodeFrom 2 left pads (char n :: cs) =
    (decodeFrom 3 (n % 4) 0 cs).map (UInt8.ofNat (left * 16 + n / 4) :: ·) := by
  rw [decodeFrom, if_neg (char_ne_pad hn), sextet_char hn]
  rfl

theorem decodeFrom_fourth (hn : n < 64) : decodeFrom 3 left pads (char n :: cs) =
    (decodeFrom 0 0 0 cs).map (UInt8.ofNat (left * 64 + n) :: ·) := by
  rw [decodeFrom, if_neg (char_ne_pad hn), sextet_char hn]
  rfl

end Steps

section Bytes
variable (a b : UInt8)

theorem ofNat_byte {n : ℕ} (h : n = a.toNat) : UInt8.ofNat n = a := h ▸ UInt8.ofNat_toNat

theorem first_byte {n : ℕ} (hn : n < 16) :
    UInt8.ofNat (a.toNat / 4 * 4 + (a.toNat % 4 * 16 + n) / 16) = a :=
  ofNat_byte a (by omega)

theorem second_byte {m n : ℕ} (hn : n < 4) :
    UInt8.ofNat ((m * 16 + a.toNat / 16) % 16 * 16 + (a.toNat % 16 * 4 + n) / 4) = a := by
  have ha := a.toNat_lt
  exact ofNat_byte a (by omega)

theorem third_byte {m : ℕ} :
    UInt8.ofNat ((m * 4 + a.toNat / 64) % 4 * 64 + a.toNat % 64) = a := by
  have ha := a.toNat_lt
  exact ofNat_byte a (by omega)

end Bytes

theorem decode_encode (bytes : List UInt8) : decode (encode bytes) = some bytes := by
  unfold decode
  induction bytes using encode.induct with
  | case1 => rfl
  | case2 a =>
      have ha := a.toNat_lt
      rw [encode, decodeFrom_first (by omega), decodeFrom_second (by omega)]
      have hbyte := first_byte a (n := 0) (by omega)
      rw [Nat.add_zero] at hbyte
      rw [hbyte]
      rfl
  | case3 a b =>
      have ha := a.toNat_lt
      have hb := b.toNat_lt
      rw [encode, decodeFrom_first (by omega), decodeFrom_second (by omega),
        decodeFrom_third (by omega), first_byte a (by omega)]
      have hbyte := second_byte b (m := a.toNat % 4) (n := 0) (by omega)
      rw [Nat.add_zero] at hbyte
      rw [hbyte]
      rfl
  | case4 a b c rest ih =>
      have ha := a.toNat_lt
      have hb := b.toNat_lt
      have hc := c.toNat_lt
      rw [encode, decodeFrom_first (by omega), decodeFrom_second (by omega),
        decodeFrom_third (by omega), decodeFrom_fourth (by omega), ih, first_byte a (by omega),
        second_byte b (by omega), third_byte c]
      rfl

/-- The characters of an encoding and the padding that completes the last group. -/
theorem encode_padding (bytes : List UInt8) : ∃ cs n, encode bytes = cs ++ List.replicate n '=' ∧
    '=' ∉ cs ∧ n < 4 ∧ (cs.length + n) % 4 = 0 := by
  induction bytes using encode.induct with
  | case1 => exact ⟨[], 0, rfl, by simp, by omega, rfl⟩
  | case2 a =>
      have ha := a.toNat_lt
      refine ⟨[char (a.toNat / 4), char (a.toNat % 4 * 16)], 2, rfl, ?_, by omega, by simp⟩
      simp [(char_ne_pad (n := a.toNat / 4) (by omega)).symm,
        (char_ne_pad (n := a.toNat % 4 * 16) (by omega)).symm]
  | case3 a b =>
      have ha := a.toNat_lt
      have hb := b.toNat_lt
      refine ⟨[char (a.toNat / 4), char (a.toNat % 4 * 16 + b.toNat / 16),
        char (b.toNat % 16 * 4)], 1, rfl, ?_, by omega, by simp⟩
      simp [(char_ne_pad (n := a.toNat / 4) (by omega)).symm,
        (char_ne_pad (n := a.toNat % 4 * 16 + b.toNat / 16) (by omega)).symm,
        (char_ne_pad (n := b.toNat % 16 * 4) (by omega)).symm]
  | case4 a b c rest ih =>
      have ha := a.toNat_lt
      have hb := b.toNat_lt
      have hc := c.toNat_lt
      obtain ⟨cs, n, hcs, hpad, hn, hlength⟩ := ih
      refine ⟨char (a.toNat / 4) :: char (a.toNat % 4 * 16 + b.toNat / 16) ::
        char (b.toNat % 16 * 4 + c.toNat / 64) :: char (c.toNat % 64) :: cs, n, ?_, ?_, hn, ?_⟩
      · rw [encode, hcs]
        rfl
      · simp [(char_ne_pad (n := a.toNat / 4) (by omega)).symm,
          (char_ne_pad (n := a.toNat % 4 * 16 + b.toNat / 16) (by omega)).symm,
          (char_ne_pad (n := b.toNat % 16 * 4 + c.toNat / 64) (by omega)).symm,
          (char_ne_pad (n := c.toNat % 64) (by omega)).symm, hpad]
      · simp only [List.length_cons]
        omega

theorem unpad_append {cs : List Char} (hpad : '=' ∉ cs) (n : ℕ) :
    unpad (cs ++ List.replicate n '=') = cs := by
  unfold unpad
  induction n with
  | zero =>
      rw [List.replicate_zero, List.append_nil, List.rdropWhile_eq_self_iff]
      intro hcs hlast
      exact hpad (of_decide_eq_true hlast ▸ List.getLast_mem hcs)
  | succ n ih =>
      rw [List.replicate_succ', ← List.append_assoc, List.rdropWhile_concat]
      simpa using ih

theorem repad_unpad (bytes : List UInt8) : repad (unpad (encode bytes)) = encode bytes := by
  obtain ⟨cs, n, hcs, hpad, hn, hlength⟩ := encode_padding bytes
  rw [hcs, unpad_append hpad, repad]
  have hcount : (-(cs.length : ℤ) % 4).toNat = n := by omega
  rw [hcount]

theorem mem_encode {bytes : List UInt8} {x : Char} (hx : x ∈ encode bytes) :
    x = '=' ∨ ∃ n < 64, x = char n := by
  induction bytes using encode.induct with
  | case1 => cases hx
  | case2 a =>
      have ha := a.toNat_lt
      simp only [encode, List.mem_cons, List.not_mem_nil, or_false] at hx
      rcases hx with rfl | rfl | rfl | rfl
      · exact .inr ⟨_, by omega, rfl⟩
      · exact .inr ⟨_, by omega, rfl⟩
      · exact .inl rfl
      · exact .inl rfl
  | case3 a b =>
      have ha := a.toNat_lt
      have hb := b.toNat_lt
      simp only [encode, List.mem_cons, List.not_mem_nil, or_false] at hx
      rcases hx with rfl | rfl | rfl | rfl
      · exact .inr ⟨_, by omega, rfl⟩
      · exact .inr ⟨_, by omega, rfl⟩
      · exact .inr ⟨_, by omega, rfl⟩
      · exact .inl rfl
  | case4 a b c rest ih =>
      have ha := a.toNat_lt
      have hb := b.toNat_lt
      have hc := c.toNat_lt
      simp only [encode, List.mem_cons] at hx
      rcases hx with rfl | rfl | rfl | rfl | hx
      · exact .inr ⟨_, by omega, rfl⟩
      · exact .inr ⟨_, by omega, rfl⟩
      · exact .inr ⟨_, by omega, rfl⟩
      · exact .inr ⟨_, by omega, rfl⟩
      · exact ih hx

/-- What is left after the padding is stripped. -/
theorem mem_unpad {bytes : List UInt8} {x : Char} (hx : x ∈ unpad (encode bytes)) :
    ∃ n < 64, x = char n := by
  have hmem : x ∈ encode bytes := (List.rdropWhile_prefix _ _).subset hx
  obtain ⟨cs, n, hcs, hpad, -, -⟩ := encode_padding bytes
  rw [hcs, unpad_append hpad] at hx
  rcases mem_encode hmem with rfl | hchar
  · exact absurd hx hpad
  · exact hchar

theorem unpad_encode_ne_nil {bytes : List UInt8} (h : bytes ≠ []) : unpad (encode bytes) ≠ [] := by
  intro hnil
  have hencode := repad_unpad bytes
  rw [hnil] at hencode
  have hdecode := decode_encode bytes
  rw [← hencode] at hdecode
  exact h (Option.some.inj hdecode).symm

theorem length_unpad_le (cs : List Char) : (unpad cs).length ≤ cs.length :=
  (List.rdropWhile_prefix _ _).length_le

/-- No more than four characters for three bytes. -/
theorem length_encode (bytes : List UInt8) : 3 * (encode bytes).length ≤ 4 * (bytes.length + 2) := by
  induction bytes using encode.induct with
  | case1 => exact Nat.zero_le _
  | case2 a => simp [encode]
  | case3 a b => simp [encode]
  | case4 a b c rest ih =>
      simp only [encode, List.length_cons]
      omega

end StoryReview.Base64
