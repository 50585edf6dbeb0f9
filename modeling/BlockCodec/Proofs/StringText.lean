import BlockCodec.Json.Reader
import BlockCodec.Json.Text
import Mathlib.Tactic.IntervalCases

namespace BlockCodec

theorem hexDigit_utf8Size {n : Nat} (small : n < 16) : (hexDigit n).utf8Size = 1 := by
  interval_cases n <;> decide

theorem length_escapeChar_pos (style : TextStyle) (c : Char) : 0 < (escapeChar style c).length := by
  unfold escapeChar
  split <;> (try split_ifs) <;> simp [unicodeEscape]

theorem length_le_flatMap_escapeChar (style : TextStyle) (cs : List Char) :
    cs.length ≤ (cs.flatMap (escapeChar style)).length := by
  induction cs with
  | nil => simp
  | cons c cs ih =>
    have := length_escapeChar_pos style c
    simp only [List.flatMap_cons, List.length_append, List.length_cons]
    omega

theorem toList_quote (style : TextStyle) (s : String) :
    (quote style s).toList = '"' :: (s.toList.flatMap (escapeChar style) ++ ['"']) :=
  String.toList_ofList

namespace JsonReader

theorem hexValue_hexDigit {n : Nat} (small : n < 16) : hexValue? (hexDigit n) = some n := by
  interval_cases n <;> decide

/-- The four digits of an escape are four bytes, and they read back as the code point. -/
theorem readHex4_unicodeEscape {n : Nat} (small : n < 0x10000) (rest : List Char) (offset : Nat) :
    readHex4 ⟨(unicodeEscape n).drop 2 ++ rest, offset⟩ = .ok (n, ⟨rest, offset + 4⟩) := by
  have digit : ∀ k, hexValue? (hexDigit (k % 16)) = some (k % 16) :=
    fun k => hexValue_hexDigit (Nat.mod_lt _ (by norm_num))
  have one : ∀ k, (hexDigit (k % 16)).utf8Size = 1 :=
    fun k => hexDigit_utf8Size (Nat.mod_lt _ (by norm_num))
  have bytes : hasBytes ((unicodeEscape n).drop 2 ++ rest) 4 = true := by
    simp [unicodeEscape, hasBytes, one]
  have value : ((n / 4096 % 16 * 16 + n / 256 % 16) * 16 + n / 16 % 16) * 16 + n % 16 = n := by
    omega
  simp only [readHex4, bytes, Bool.not_true]
  simp [unicodeEscape, digit, value]

theorem readUnicodeEscape_unicodeEscape {n : Nat} (below : n < 0xD800) (rest : List Char) (offset : Nat) :
    readUnicodeEscape ⟨(unicodeEscape n).drop 2 ++ rest, offset⟩ = .ok (Char.ofNat n, ⟨rest, offset + 4⟩) := by
  have not_low : ¬(0xDC00 ≤ n ∧ n ≤ 0xDFFF) := by omega
  have single : n < 0xD800 ∨ 0xDBFF < n := .inl below
  simp only [readUnicodeEscape, readHex4_unicodeEscape (by omega : n < 0x10000), not_low, single,
    if_false, if_true]

/-- One written character reads back as itself. -/
theorem readStringBody_escapeChar (style : TextStyle) (c : Char) (fuel : Nat) (acc : String)
    (rest : List Char) (offset : Nat) :
    ∃ offset', readStringBody (fuel + 1) acc ⟨escapeChar style c ++ rest, offset⟩ =
      readStringBody fuel (acc.push c) ⟨rest, offset'⟩ := by
  -- a code point written as `\uXXXX` lies below the surrogates
  have escaped : ∀ c : Char, c.toNat < 0xD800 →
      ∃ offset', readStringBody (fuel + 1) acc ⟨unicodeEscape c.toNat ++ rest, offset⟩ =
        readStringBody fuel (acc.push c) ⟨rest, offset'⟩ := by
    intro c below
    have read := readUnicodeEscape_unicodeEscape below rest (offset + 2)
    simp only [unicodeEscape, List.drop_succ_cons, List.drop_zero, List.cons_append, List.nil_append] at read
    simp only [unicodeEscape, List.cons_append, List.nil_append, readStringBody, read, Char.ofNat_toNat]
    exact ⟨_, rfl⟩
  unfold escapeChar
  split
  · exact ⟨_, rfl⟩
  · exact ⟨_, rfl⟩
  · exact ⟨_, rfl⟩
  · exact ⟨_, rfl⟩
  · exact ⟨_, rfl⟩
  · exact ⟨_, rfl⟩
  · exact ⟨_, rfl⟩
  · rename_i not_quote not_backslash _ _ _ _ _
    split_ifs with control separator
    · exact escaped c (by omega)
    · simp only [Bool.and_eq_true, Bool.or_eq_true, beq_iff_eq] at separator
      exact escaped c (by omega)
    · have printable : ¬c.toNat < 0x20 := control
      simp only [List.cons_append, readStringBody, printable, if_false]
      exact ⟨_, rfl⟩

/-- The escaped characters of a string, then its closing quote, read back as the string. -/
theorem readStringBody_escaped (style : TextStyle) (cs : List Char) (fuel : Nat)
    (enough : cs.length < fuel) (acc : String) (rest : List Char) (offset : Nat) :
    ∃ offset', readStringBody fuel acc ⟨cs.flatMap (escapeChar style) ++ '"' :: rest, offset⟩ =
      .ok (String.ofList (acc.toList ++ cs), ⟨rest, offset'⟩) := by
  induction cs generalizing fuel acc offset with
  | nil =>
    obtain ⟨fuel, rfl⟩ : ∃ f, fuel = f + 1 := ⟨fuel - 1, by simp at enough; omega⟩
    simp [readStringBody, String.ofList_toList]
  | cons c cs ih =>
    obtain ⟨fuel, rfl⟩ : ∃ f, fuel = f + 1 := ⟨fuel - 1, by simp at enough; omega⟩
    obtain ⟨offset', first⟩ := readStringBody_escapeChar style c fuel acc
      (cs.flatMap (escapeChar style) ++ '"' :: rest) offset
    obtain ⟨offset'', others⟩ := ih fuel (by simp at enough; omega) (acc.push c) offset'
    refine ⟨offset'', ?_⟩
    rw [List.flatMap_cons, List.append_assoc, first, others, String.toList_push]
    simp

/-- A string's quoted text, after the opening quote, reads back as the string. -/
theorem readString_quote (style : TextStyle) (s : String) (fuel : Nat) (enough : s.length < fuel)
    (rest : List Char) (offset : Nat) :
    ∃ offset', readString fuel ⟨s.toList.flatMap (escapeChar style) ++ '"' :: rest, offset⟩ =
      .ok (s, ⟨rest, offset'⟩) := by
  obtain ⟨offset', read⟩ := readStringBody_escaped style s.toList fuel
    (by rwa [String.length_toList]) "" rest offset
  refine ⟨offset', ?_⟩
  rw [readString, read, String.toList_empty, List.nil_append, String.ofList_toList]

end JsonReader

end BlockCodec
