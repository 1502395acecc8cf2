import AffectedTests.Proofs.Changes
import AffectedTests.Proofs.Encoding
/-!
# How paths are quoted

A path of printable characters, none of them a double quote or a backslash, is written as it is. Any
other path is written in double quotes, byte by byte: a printable byte as its character, some bytes as a
backslash and a letter, and the others as a backslash and three octal digits. Every path is read as it
was before.

- `Path.Quoted.encode`: what is written for a path.
- `Path.Quoted.bytesFrom_encodeByte`: one byte is read back, whatever follows it.
- `Path.Quoted.decode_encode`: a whole path is read back.
-/

namespace AffectedTests

namespace Path.Quoted

open Diff.Change (PathPoint)

/-! ## What is written -/

/-- The bytes that are written as a backslash and a letter. -/
def letters : List (UInt8 × CodePoint) :=
  [(0x07, 'a'), (0x08, 'b'), (0x09, 't'), (0x0A, 'n'), (0x0B, 'v'), (0x0C, 'f'), (0x0D, 'r'),
    (0x22, '"'), (0x5C, '\\')]

def octalDigit (n : Nat) : CodePoint :=
  CodePoint.ofNat (0x30 + n)

/-- A byte between double quotes. -/
def encodeByte (b : UInt8) : Text :=
  match letters.lookup b with
  | some letter => ['\\', letter]
  | none =>
    if 0x20 ≤ b.toNat ∧ b.toNat ≤ 0x7E then [CodePoint.ofNat b.toNat]
    else ['\\', octalDigit (b.toNat / 64), octalDigit (b.toNat / 8 % 8), octalDigit (b.toNat % 8)]

/-- The written form of a path. -/
def encode (t : Text) : Text :=
  if t.all fun c => decide (PathPoint c) then t
  else ('"' : CodePoint) :: (((Utf8.encode t).getD []).flatMap encodeByte ++ [('"' : CodePoint)])

variable {t : Text} {b : UInt8} {bytes : Bytes} {c : CodePoint}

theorem encode_of_plain (h : ∀ c ∈ t, PathPoint c) : encode t = t :=
  if_pos (List.all_eq_true.2 fun c hc => decide_eq_true (h c hc))

theorem encode_of_special (h : ¬ ∀ c ∈ t, PathPoint c) (hbytes : Utf8.encode t = some bytes) :
    encode t = ('"' : CodePoint) :: (bytes.flatMap encodeByte ++ [('"' : CodePoint)]) := by
  have hspecial : ¬ (t.all fun c => decide (PathPoint c)) = true := by
    intro hall
    exact h fun c hc => of_decide_eq_true (List.all_eq_true.1 hall c hc)
  unfold encode
  rw [if_neg hspecial, hbytes]
  rfl

/-! ## One byte -/

theorem byte?_toNat (b : UInt8) : byte? b.toNat = some b := by
  unfold byte?
  rw [if_pos b.toNat_lt]
  exact congrArg some UInt8.ofNat_toNat

theorem val_ofNat_toNat (b : UInt8) : (CodePoint.ofNat b.toNat).val = b.toNat := by
  have hlt := b.toNat_lt
  exact Nat.mod_eq_of_lt (by omega)

/-- A character that is no backslash denotes the byte with its number. -/
theorem bytesFrom_plain (hslash : c ≠ '\\') (hbyte : byte? c.val = some b) (rest : Text) :
    bytesFrom .nothing (c :: rest) = (bytesFrom .nothing rest).map (b :: ·) := by
  cases hrest : bytesFrom .nothing rest with
  | none => simp [bytesFrom, hslash, hrest]
  | some read => simp [bytesFrom, hslash, hbyte, hrest]

theorem bytesFrom_letter (h : letters.lookup b = some c) (rest : Text) :
    bytesFrom .backslash (c :: rest) = (bytesFrom .nothing rest).map (b :: ·) := by
  have hall : (letters.all fun p => decide (letterEscapes.lookup p.2 = some p.1)) = true := by decide
  rcases List.lookup_eq_some_iff.1 h with ⟨before, after, hletters, -⟩
  have hmem : (b, c) ∈ letters := by simp [hletters]
  have hback : letterEscapes.lookup c = some b := of_decide_eq_true (List.all_eq_true.1 hall (b, c) hmem)
  simp [bytesFrom, hback]

/-- After three octal digits the byte is complete, also in front of a further digit. -/
theorem bytesFrom_octal_complete {value : Nat} (h : byte? value = some b) (rest : Text) :
    bytesFrom (.octal value 0) rest = (bytesFrom .nothing rest).map (b :: ·) := by
  -- The next character is read in the same step as the byte is completed.
  cases rest with
  | nil => simp [bytesFrom, h]
  | cons c rest =>
    by_cases hslash : c = '\\'
    · cases hread : bytesFrom .backslash rest <;> simp [bytesFrom, h, hslash, hread]
    · cases hread : bytesFrom .nothing rest <;> cases hbyte : byte? c.val <;>
        simp [bytesFrom, h, hslash, hbyte, hread]

theorem digit_octalDigit {d : Nat} (h : d < 8) :
    digitIn? 8 (octalDigit d) = some d ∧ letterEscapes.lookup (octalDigit d) = none := by
  have hall : ∀ d < 8, digitIn? 8 (octalDigit d) = some d ∧
      letterEscapes.lookup (octalDigit d) = none := by decide
  exact hall d h

theorem bytesFrom_octal {high middle low : Nat} (hhigh : high < 8) (hmiddle : middle < 8)
    (hlow : low < 8) (h : byte? (8 * (8 * high + middle) + low) = some b) (rest : Text) :
    bytesFrom .backslash (octalDigit high :: octalDigit middle :: octalDigit low :: rest) =
      (bytesFrom .nothing rest).map (b :: ·) := by
  rcases digit_octalDigit hhigh with ⟨hfirst, hletter⟩
  have hsecond := (digit_octalDigit hmiddle).1
  have hthird := (digit_octalDigit hlow).1
  calc
    bytesFrom .backslash (octalDigit high :: octalDigit middle :: octalDigit low :: rest)
        = bytesFrom (.octal high 2) (octalDigit middle :: octalDigit low :: rest) := by
          simp [bytesFrom, hfirst, hletter]
    _ = bytesFrom (.octal (8 * high + middle) 1) (octalDigit low :: rest) := by
          simp [bytesFrom, hsecond]
    _ = bytesFrom (.octal (8 * (8 * high + middle) + low) 0) rest := by
          simp [bytesFrom, hthird]
    _ = (bytesFrom .nothing rest).map (b :: ·) := bytesFrom_octal_complete h rest

/-- The step lemma: a byte that is written is read, whatever follows it. -/
theorem bytesFrom_encodeByte (b : UInt8) (rest : Text) :
    bytesFrom .nothing (encodeByte b ++ rest) = (bytesFrom .nothing rest).map (b :: ·) := by
  have hbackslash : ∀ u, bytesFrom .nothing (('\\' : CodePoint) :: u) = bytesFrom .backslash u := by
    intro u
    simp [bytesFrom]
  unfold encodeByte
  split
  · rename_i letter hletter
    exact (hbackslash _).trans (bytesFrom_letter hletter rest)
  · rename_i hletter
    split
    · -- A backslash has a letter, so this character is none.
      have hslash : CodePoint.ofNat b.toNat ≠ ('\\' : CodePoint) := by
        intro hslash
        have hval : (CodePoint.ofNat b.toNat).val = 0x5C := by rw [hslash]; rfl
        have hb : b = 0x5C := UInt8.toNat_inj.1 ((val_ofNat_toNat b).symm.trans hval)
        rw [hb] at hletter
        exact absurd hletter (by decide)
      exact bytesFrom_plain hslash (by rw [val_ofNat_toNat, byte?_toNat]) rest
    · have hlt := b.toNat_lt
      have hvalue : 8 * (8 * (b.toNat / 64) + b.toNat / 8 % 8) + b.toNat % 8 = b.toNat := by omega
      have hbyte : byte? (8 * (8 * (b.toNat / 64) + b.toNat / 8 % 8) + b.toNat % 8) = some b := by
        rw [hvalue, byte?_toNat]
      exact (hbackslash _).trans (bytesFrom_octal (by omega) (by omega) (by omega) hbyte rest)

/-- The run lemma: bytes that are written are read. -/
theorem bytesFrom_encodeBytes (bytes : Bytes) :
    bytesFrom .nothing (bytes.flatMap encodeByte) = some bytes := by
  induction bytes with
  | nil => rfl
  | cons b bytes ih => simp [bytesFrom_encodeByte, ih]

/-! ## Whole paths -/

/-- A byte whose character is special is written with a backslash. -/
theorem slash_mem_encodeByte (h : ¬ PathPoint (CodePoint.ofNat b.toNat)) :
    ('\\' : CodePoint) ∈ encodeByte b := by
  unfold encodeByte
  split
  · simp
  · rename_i hletter
    split
    · rename_i hprintable
      have hquote : CodePoint.ofNat b.toNat ≠ ('"' : CodePoint) ∧
          CodePoint.ofNat b.toNat ≠ ('\\' : CodePoint) := by
        have hnone : ∀ x : UInt8, letters.lookup x ≠ none → b ≠ x := by
          rintro x hx rfl
          exact hx hletter
        refine ⟨fun heq => hnone 0x22 (by decide) ?_, fun heq => hnone 0x5C (by decide) ?_⟩
        · exact UInt8.toNat_inj.1 ((val_ofNat_toNat b).symm.trans (congrArg Fin.val heq))
        · exact UInt8.toNat_inj.1 ((val_ofNat_toNat b).symm.trans (congrArg Fin.val heq))
      rw [← val_ofNat_toNat] at hprintable
      exact absurd ⟨hprintable.1, hprintable.2, hquote.1, hquote.2⟩ h
    · simp

/-- Among the bytes of a special character there is a special byte. -/
theorem exists_special_byte (hc : ¬ PathPoint c) (h : Utf8.encodePoint c = some bytes) :
    ∃ b ∈ bytes, ¬ PathPoint (CodePoint.ofNat b.toNat) := by
  have hlt := c.isLt
  -- The first byte of several is beyond the printable ones.
  have hbeyond : ∀ n : Nat, 0xC0 ≤ n → n < 0x100 → ¬ PathPoint (CodePoint.ofNat n.toUInt8.toNat) := by
    intro n hlow hhigh hpoint
    have hprintable := hpoint.2.1
    rw [val_ofNat_toNat, Utf8.toNat_toUInt8 hhigh] at hprintable
    omega
  unfold Utf8.encodePoint at h
  dsimp only at h
  split at h
  · rename_i hn
    cases h
    refine ⟨_, List.mem_singleton_self _, ?_⟩
    have hback : CodePoint.ofNat c.val.toUInt8.toNat = c := by
      apply Fin.ext
      rw [val_ofNat_toNat, Utf8.toNat_toUInt8 (by omega)]
    rwa [hback]
  · split at h
    · cases h
      exact ⟨_, List.mem_cons_self .., hbeyond _ (by omega) (by omega)⟩
    · split at h
      · cases h
      · split at h
        · cases h
          exact ⟨_, List.mem_cons_self .., hbeyond _ (by omega) (by omega)⟩
        · cases h
          exact ⟨_, List.mem_cons_self .., hbeyond _ (by omega) (by omega)⟩

theorem slash_mem_encodeBytes (h : ¬ ∀ c ∈ t, PathPoint c) (hbytes : Utf8.encode t = some bytes) :
    ('\\' : CodePoint) ∈ bytes.flatMap encodeByte := by
  induction t generalizing bytes with
  | nil => exact absurd (by simp) h
  | cons c t ih =>
    rw [Utf8.encode_cons] at hbytes
    rcases Option.bind_eq_some_iff.1 hbytes with ⟨first, hfirst, hbytes⟩
    rcases Option.map_eq_some_iff.1 hbytes with ⟨rest, hrest, rfl⟩
    rw [List.flatMap_append]
    by_cases hc : PathPoint c
    · have ht : ¬ ∀ c ∈ t, PathPoint c := fun hall => h (by simpa [hc] using hall)
      exact List.mem_append_right _ (ih ht hrest)
    · rcases exists_special_byte hc hfirst with ⟨b, hb, hspecial⟩
      exact List.mem_append_left _ (List.mem_flatMap.2 ⟨b, hb, slash_mem_encodeByte hspecial⟩)

/-- Quoting is undone. -/
theorem decode_encode (h : t.Scalar) : decode (encode t) = t := by
  rcases Utf8.exists_encode h with ⟨bytes, hbytes⟩
  by_cases hplain : ∀ c ∈ t, PathPoint c
  · rw [encode_of_plain hplain, Diff.Change.decode_of_points hplain]
  · -- The double quotes are dropped first; escapes are read only if there is a backslash.
    have hunwrap : unwrap (encode t) = bytes.flatMap encodeByte := by
      rw [encode_of_special hplain hbytes]
      simp [unwrap, List.getLast?_cons]
    have hslash := slash_mem_encodeBytes hplain hbytes
    calc
      decode (encode t)
          = ((bytesFrom .nothing (bytes.flatMap encodeByte)).bind Utf8.decode).getD
              (bytes.flatMap encodeByte) := by
            unfold decode
            dsimp only
            rw [hunwrap, if_pos (List.contains_iff_mem.2 hslash)]
      _ = t := by simp [bytesFrom_encodeBytes, Utf8.decode_of_encode hbytes]

/-! ## The characters of a written form -/

theorem printable_of_mem_encodeByte (h : c ∈ encodeByte b) : 0x20 ≤ c.val ∧ c.val ≤ 0x7E := by
  have hslash : 0x20 ≤ ('\\' : CodePoint).val ∧ ('\\' : CodePoint).val ≤ 0x7E := by decide
  have hdigit : ∀ d < 8, 0x20 ≤ (octalDigit d).val ∧ (octalDigit d).val ≤ 0x7E := by decide
  have hletters : (letters.all fun p => decide (0x20 ≤ p.2.val ∧ p.2.val ≤ 0x7E)) = true := by decide
  have hlt := b.toNat_lt
  unfold encodeByte at h
  split at h
  · rename_i letter hletter
    rcases List.lookup_eq_some_iff.1 hletter with ⟨before, after, hsplit, -⟩
    simp only [List.mem_cons, List.not_mem_nil, or_false] at h
    rcases h with rfl | rfl
    · exact hslash
    · have hmem : (b, c) ∈ letters := by simp [hsplit]
      exact of_decide_eq_true (List.all_eq_true.1 hletters (b, c) hmem)
  · split at h
    · rename_i hprintable
      rw [List.mem_singleton.1 h, val_ofNat_toNat]
      exact hprintable
    · simp only [List.mem_cons, List.not_mem_nil, or_false] at h
      rcases h with rfl | rfl | rfl | rfl
      · exact hslash
      · exact hdigit _ (by omega)
      · exact hdigit _ (by omega)
      · exact hdigit _ (by omega)

theorem printable_of_mem_encode (h : c ∈ encode t) : 0x20 ≤ c.val ∧ c.val ≤ 0x7E := by
  have hquote : 0x20 ≤ ('"' : CodePoint).val ∧ ('"' : CodePoint).val ≤ 0x7E := by decide
  unfold encode at h
  split at h
  · rename_i hplain
    have hpoint := of_decide_eq_true (List.all_eq_true.1 hplain c h)
    exact ⟨hpoint.1, hpoint.2.1⟩
  · rcases List.mem_cons.1 h with rfl | h
    · exact hquote
    · rcases List.mem_append.1 h with h | h
      · rcases List.mem_flatMap.1 h with ⟨b, -, hc⟩
        exact printable_of_mem_encodeByte hc
      · rw [List.mem_singleton.1 h]
        exact hquote

/-- A leading part without special characters stays in front, behind the double quote if there is one. -/
theorem encode_append (lead : Text) (hlead : ∃ bytes, Utf8.encode lead = some bytes ∧
    bytes.flatMap encodeByte = lead) (h : t.Scalar) : ∃ rest,
      encode (lead ++ t) = lead ++ rest ∨ encode (lead ++ t) = ('"' : CodePoint) :: (lead ++ rest) := by
  rcases hlead with ⟨first, hfirst, hwritten⟩
  rcases Utf8.exists_encode h with ⟨bytes, hbytes⟩
  by_cases hplain : ∀ c ∈ lead ++ t, PathPoint c
  · exact ⟨t, .inl (encode_of_plain hplain)⟩
  · have hboth : Utf8.encode (lead ++ t) = some (first ++ bytes) := by
      simp [Utf8.encode_append, hfirst, hbytes]
    refine ⟨bytes.flatMap encodeByte ++ [('"' : CodePoint)], .inr ?_⟩
    rw [encode_of_special hplain hboth, List.flatMap_append, hwritten, List.append_assoc]

end Path.Quoted

end AffectedTests
