import AffectedTests.Text.Utf8
/-!
# Decoded texts encode their bytes

What can be decoded is what encodes the decoded text, and what encodes a text is decoded to it. So a part
of the text of some bytes has its own bytes among them, and bytes are those of a text exactly if they
are read as that text.
-/

namespace AffectedTests

/-! ## Occurrences -/

theorem Bytes.occursIn_iff {needle bytes : Bytes} :
    needle.occursIn bytes = true ↔ needle <:+: bytes := by
  induction bytes with
  | nil => simp [Bytes.occursIn]
  | cons b rest ih =>
    rw [Bytes.occursIn, Bool.or_eq_true, List.isPrefixOf_iff_prefix, ih, List.infix_cons_iff]

/-- A text without surrogates. -/
def Text.Scalar (t : Text) : Prop :=
  ∀ c ∈ t, c.isSurrogate = false

theorem Text.scalar_append {t u : Text} (ht : t.Scalar) (hu : u.Scalar) : Text.Scalar (t ++ u) := by
  intro c hc
  rcases List.mem_append.1 hc with hc | hc
  · exact ht c hc
  · exact hu c hc

namespace Utf8

/-! ## One code point -/

variable {c : CodePoint} {a b x y : UInt8}

theorem continuation?_eq_some {n : Nat} (h : continuation? b = some n) :
    0x80 ≤ b.toNat ∧ b.toNat ≤ 0xBF ∧ n = b.toNat - 0x80 := by
  unfold continuation? at h
  split at h
  · rename_i hb
    have hlow := UInt8.le_iff_toNat_le.1 hb.1
    have hhigh := UInt8.le_iff_toNat_le.1 hb.2
    exact ⟨hlow, hhigh, (Option.some.inj h).symm⟩
  · cases h

theorem scalar?_eq_some {least n : Nat} (h : scalar? least n = some c) :
    c.val = n ∧ least ≤ n ∧ c.isSurrogate = false := by
  unfold scalar? at h
  split at h
  · split at h
    · rename_i hc
      cases h
      exact ⟨rfl, hc⟩
    · cases h
  · cases h

theorem toUInt8_eq {n : Nat} (h : n = b.toNat) : n.toUInt8 = b := by
  rw [h]
  exact UInt8.ofNat_toNat

theorem encodePoint_of_pair? (h : pair? a b = some c) : encodePoint c = some [a, b] := by
  unfold pair? at h
  split at h
  · rename_i ha
    have hlow := UInt8.le_iff_toNat_le.1 ha.1
    have hhigh := UInt8.le_iff_toNat_le.1 ha.2
    rcases Option.bind_eq_some_iff.1 h with ⟨n, hn, hc⟩
    have hb := continuation?_eq_some hn
    have hv := scalar?_eq_some hc
    have h192 : (0xC0 : UInt8).toNat = 192 := rfl
    have h223 : (0xDF : UInt8).toNat = 223 := rfl
    have hnum : c.val = (a.toNat - 0xC0) * 0x40 + (b.toNat - 0x80) := by rw [hv.1, hb.2.2]
    -- The number lies in the range of this width, and its parts are the bytes.
    unfold encodePoint
    dsimp only
    rw [if_neg (by omega), if_pos (by omega), toUInt8_eq (b := a) (by omega),
      toUInt8_eq (b := b) (by omega)]
  · cases h

theorem encodePoint_of_triple? (h : triple? a b x = some c) : encodePoint c = some [a, b, x] := by
  unfold triple? at h
  split at h
  · rename_i ha
    have hlow := UInt8.le_iff_toNat_le.1 ha.1
    have hhigh := UInt8.le_iff_toNat_le.1 ha.2
    rcases Option.bind_eq_some_iff.1 h with ⟨n, hn, h⟩
    rcases Option.bind_eq_some_iff.1 h with ⟨k, hk, hc⟩
    have hb := continuation?_eq_some hn
    have hx := continuation?_eq_some hk
    have hv := scalar?_eq_some hc
    have h224 : (0xE0 : UInt8).toNat = 224 := rfl
    have h239 : (0xEF : UInt8).toNat = 239 := rfl
    have hnum : c.val = (a.toNat - 0xE0) * 0x1000 + (b.toNat - 0x80) * 0x40 + (x.toNat - 0x80) := by
      rw [hv.1, hb.2.2, hx.2.2]
    unfold encodePoint
    dsimp only
    rw [if_neg (by omega), if_neg (by omega), if_neg (by simp [hv.2.2]), if_pos (by omega),
      toUInt8_eq (b := a) (by omega), toUInt8_eq (b := b) (by omega), toUInt8_eq (b := x) (by omega)]
  · cases h

theorem encodePoint_of_quadruple? (h : quadruple? a b x y = some c) :
    encodePoint c = some [a, b, x, y] := by
  unfold quadruple? at h
  split at h
  · rename_i ha
    have hlow := UInt8.le_iff_toNat_le.1 ha.1
    have hhigh := UInt8.le_iff_toNat_le.1 ha.2
    rcases Option.bind_eq_some_iff.1 h with ⟨n, hn, h⟩
    rcases Option.bind_eq_some_iff.1 h with ⟨k, hk, h⟩
    rcases Option.bind_eq_some_iff.1 h with ⟨l, hl, hc⟩
    have hb := continuation?_eq_some hn
    have hx := continuation?_eq_some hk
    have hy := continuation?_eq_some hl
    have hv := scalar?_eq_some hc
    have h240 : (0xF0 : UInt8).toNat = 240 := rfl
    have h247 : (0xF7 : UInt8).toNat = 247 := rfl
    have hnum : c.val = (a.toNat - 0xF0) * 0x40000 + (b.toNat - 0x80) * 0x1000 +
        (x.toNat - 0x80) * 0x40 + (y.toNat - 0x80) := by
      rw [hv.1, hb.2.2, hx.2.2, hy.2.2]
    unfold encodePoint
    dsimp only
    rw [if_neg (by omega), if_neg (by omega), if_neg (by simp [hv.2.2]), if_neg (by omega),
      toUInt8_eq (b := a) (by omega), toUInt8_eq (b := b) (by omega), toUInt8_eq (b := x) (by omega),
      toUInt8_eq (b := y) (by omega)]
  · cases h

theorem encodePoint_of_ascii (h : a < 0x80) : encodePoint (CodePoint.ofNat a.toNat) = some [a] := by
  have hlow := UInt8.lt_iff_toNat_lt.1 h
  have h128 : (0x80 : UInt8).toNat = 128 := rfl
  have hval : (CodePoint.ofNat a.toNat).val = a.toNat := by
    simp only [CodePoint.ofNat]
    omega
  unfold encodePoint
  dsimp only
  rw [if_pos (by omega), toUInt8_eq hval]

/-- The code point at the front of some bytes is encoded by as many of them as it takes. -/
theorem encodePoint_of_leading? {bytes : Bytes} {width : Nat} (h : leading? bytes = some (c, width)) :
    0 < width ∧ encodePoint c = some (bytes.take width) := by
  unfold leading? at h
  split at h
  · cases h
  · split at h
    · rename_i ha
      cases h
      exact ⟨by omega, encodePoint_of_ascii ha⟩
    · split at h
      · cases h
      · split at h
        · rename_i hp
          cases h
          exact ⟨by omega, encodePoint_of_pair? hp⟩
        · cases h
        · split at h
          · rename_i hp
            cases h
            exact ⟨by omega, encodePoint_of_triple? hp⟩
          · cases h
          · rcases Option.map_eq_some_iff.1 h with ⟨p, hp, heq⟩
            cases heq
            exact ⟨by omega, encodePoint_of_quadruple? hp⟩

/-! ## Whole sequences -/

theorem piecesAfter_eq (skip : Nat) (bytes : Bytes) :
    piecesAfter skip bytes = pieces (bytes.drop skip) := by
  induction bytes generalizing skip with
  | nil => cases skip <;> rfl
  | cons b rest ih =>
    cases skip with
    | zero => rfl
    | succ skip => exact ih skip

theorem encode_cons (c : CodePoint) (t : Text) :
    encode (c :: t) = (encodePoint c).bind fun bytes => (encode t).map (bytes ++ ·) := by
  unfold encode
  rw [List.mapM_cons]
  cases encodePoint c with
  | none => rfl
  | some bytes =>
    cases t.mapM encodePoint with
    | none => rfl
    | some rest => rfl

/-- The bytes of two texts one after the other. -/
theorem encode_append {t u : Text} :
    encode (t ++ u) = (encode t).bind fun bytes => (encode u).map (bytes ++ ·) := by
  induction t with
  | nil =>
    have hnil : encode [] = some [] := rfl
    rw [List.nil_append, hnil]
    cases encode u <;> rfl
  | cons c t ih =>
    rw [List.cons_append, encode_cons, encode_cons, ih]
    cases encodePoint c with
    | none => rfl
    | some bytes =>
      cases encode t with
      | none => rfl
      | some rest => cases encode u <;> simp

theorem exists_encodePoint (h : c.isSurrogate = false) : ∃ bytes, encodePoint c = some bytes := by
  unfold encodePoint
  dsimp only
  split
  · exact ⟨_, rfl⟩
  · split
    · exact ⟨_, rfl⟩
    · rw [h, if_neg (by decide)]
      split
      · exact ⟨_, rfl⟩
      · exact ⟨_, rfl⟩

/-- Every text without surrogates has an encoding. -/
theorem exists_encode {t : Text} (h : t.Scalar) : ∃ bytes, encode t = some bytes := by
  induction t with
  | nil => exact ⟨[], rfl⟩
  | cons c t ih =>
    rcases exists_encodePoint (h c (by simp)) with ⟨first, hfirst⟩
    rcases ih fun c' hc' => h c' (by simp [hc']) with ⟨rest, hrest⟩
    exact ⟨first ++ rest, by simp [encode_cons, hfirst, hrest]⟩

theorem isSurrogate_of_encodePoint {bytes : Bytes} (h : encodePoint c = some bytes) :
    c.isSurrogate = false := by
  refine Bool.eq_false_iff.2 fun hsurrogate => ?_
  have hrange : 0xD800 ≤ c.val := by
    simp only [CodePoint.isSurrogate, Bool.and_eq_true, decide_eq_true_eq] at hsurrogate
    exact hsurrogate.1
  unfold encodePoint at h
  dsimp only at h
  rw [if_neg (by omega), if_neg (by omega), if_pos hsurrogate] at h
  cases h

/-- No other text has one. -/
theorem scalar_iff_exists_encode {t : Text} : t.Scalar ↔ ∃ bytes, encode t = some bytes := by
  refine ⟨exists_encode, ?_⟩
  induction t with
  | nil => exact fun _ c hc => absurd hc List.not_mem_nil
  | cons c t ih =>
    rintro ⟨bytes, hbytes⟩
    rw [encode_cons] at hbytes
    rcases Option.bind_eq_some_iff.1 hbytes with ⟨first, hfirst, hrest⟩
    rcases Option.map_eq_some_iff.1 hrest with ⟨rest, hrest, -⟩
    exact List.forall_mem_cons.2 ⟨isSurrogate_of_encodePoint hfirst, ih ⟨rest, hrest⟩⟩

theorem encode_of_decode {bytes : Bytes} {t : Text} (h : decode bytes = some t) :
    encode t = some bytes := by
  -- A code point takes several bytes, so the induction is over the number of bytes.
  induction hlength : bytes.length using Nat.strongRecOn generalizing bytes t with
  | ind n ih =>
    cases bytes with
    | nil =>
      cases h
      rfl
    | cons b rest =>
      unfold decode pieces at h
      rw [piecesAfter] at h
      split at h
      · rename_i c width hleading
        rcases encodePoint_of_leading? hleading with ⟨hwidth, hpoint⟩
        rw [piecesAfter_eq, List.mapM_cons] at h
        rcases Option.bind_eq_some_iff.1 h with ⟨c', hc, h⟩
        rcases Option.bind_eq_some_iff.1 h with ⟨u, hu, h⟩
        cases hc
        cases h
        have hrest : encode u = some (rest.drop (width - 1)) := by
          refine ih _ ?_ hu rfl
          rw [← hlength, List.length_drop, List.length_cons]
          omega
        have hdrop : rest.drop (width - 1) = (b :: rest).drop width := by
          cases width with
          | zero => cases hwidth
          | succ width => rfl
        rw [encode_cons, hpoint, hrest, hdrop]
        exact congrArg some (List.take_append_drop width (b :: rest))
      · rw [List.mapM_cons] at h
        cases h

/-- A part of a text has its bytes among those of the text. -/
theorem exists_encode_of_infix {part t : Text} {bytes : Bytes} (h : encode t = some bytes)
    (hpart : part <:+: t) : ∃ word, encode part = some word ∧ word <:+: bytes := by
  rcases hpart with ⟨before, after, rfl⟩
  rw [encode_append, encode_append] at h
  rcases Option.bind_eq_some_iff.1 h with ⟨front, hfront, h⟩
  rcases Option.bind_eq_some_iff.1 hfront with ⟨first, -, hword⟩
  rcases Option.map_eq_some_iff.1 hword with ⟨word, hencode, rfl⟩
  rcases Option.map_eq_some_iff.1 h with ⟨last, -, rfl⟩
  exact ⟨word, hencode, first, last, rfl⟩

/-! ## Reading what was encoded -/

theorem toNat_toUInt8 {n : Nat} (h : n < 0x100) : n.toUInt8.toNat = n :=
  UInt8.toNat_ofNat_of_lt h

theorem between_iff {low high a : UInt8} :
    low ≤ a ∧ a ≤ high ↔ low.toNat ≤ a.toNat ∧ a.toNat ≤ high.toNat := by
  rw [UInt8.le_iff_toNat_le, UInt8.le_iff_toNat_le]

theorem not_ascii (h : 0x80 ≤ a.toNat) : ¬ a < 0x80 := by
  have h128 : (0x80 : UInt8).toNat = 0x80 := rfl
  rw [UInt8.lt_iff_toNat_lt]
  omega

theorem continuation?_toUInt8 {n : Nat} (h : n < 0x40) :
    continuation? (0x80 + n).toUInt8 = some n := by
  have hnat := toNat_toUInt8 (n := 0x80 + n) (by omega)
  have hbetween : (0x80 : UInt8).toNat = 0x80 ∧ (0xBF : UInt8).toNat = 0xBF := ⟨rfl, rfl⟩
  unfold continuation?
  rw [if_pos (between_iff.2 (by omega)), hnat, Nat.add_sub_cancel_left]

theorem scalar?_val {least n : Nat} (hn : n = c.val) (hleast : least ≤ n)
    (hc : c.isSurrogate = false) : scalar? least n = some c := by
  subst hn
  unfold scalar?
  rw [dif_pos c.isLt, if_pos ⟨hleast, hc⟩]

theorem leading?_of_pair? (ha : 0xC0 ≤ a.toNat) (h : pair? a b = some c) (rest : Bytes) :
    leading? (a :: b :: rest) = some (c, 2) := by
  have hascii : ¬ a < 0x80 := not_ascii (by omega)
  simp only [leading?, if_neg hascii, h]

theorem leading?_of_triple? (ha : 0xE0 ≤ a.toNat) (h : triple? a b x = some c) (rest : Bytes) :
    leading? (a :: b :: x :: rest) = some (c, 3) := by
  have hascii : ¬ a < 0x80 := not_ascii (by omega)
  have hpair : pair? a b = none := by
    have hlead : (0xC0 : UInt8).toNat = 0xC0 ∧ (0xDF : UInt8).toNat = 0xDF := ⟨rfl, rfl⟩
    unfold pair?
    rw [if_neg fun hlt => by have := between_iff.1 hlt; omega]
  simp only [leading?, if_neg hascii, hpair, h]

theorem leading?_of_quadruple? (ha : 0xF0 ≤ a.toNat) (h : quadruple? a b x y = some c)
    (rest : Bytes) : leading? (a :: b :: x :: y :: rest) = some (c, 4) := by
  have hascii : ¬ a < 0x80 := not_ascii (by omega)
  have hpair : pair? a b = none := by
    have hlead : (0xC0 : UInt8).toNat = 0xC0 ∧ (0xDF : UInt8).toNat = 0xDF := ⟨rfl, rfl⟩
    unfold pair?
    rw [if_neg fun hlt => by have := between_iff.1 hlt; omega]
  have htriple : triple? a b x = none := by
    have hlead : (0xE0 : UInt8).toNat = 0xE0 ∧ (0xEF : UInt8).toNat = 0xEF := ⟨rfl, rfl⟩
    unfold triple?
    rw [if_neg fun hlt => by have := between_iff.1 hlt; omega]
  simp only [leading?, if_neg hascii, hpair, htriple, h, Option.map_some]

/-- The bytes of a code point are read as that code point, whatever follows them. -/
theorem leading?_of_encodePoint {bytes : Bytes} (h : encodePoint c = some bytes) (rest : Bytes) :
    leading? (bytes ++ rest) = some (c, bytes.length) := by
  have hlt := c.isLt
  unfold encodePoint at h
  dsimp only at h
  split at h
  · rename_i hn
    have hnat := toNat_toUInt8 (n := c.val) (by omega)
    have h128 : (0x80 : UInt8).toNat = 0x80 := rfl
    have hascii : c.val.toUInt8 < 0x80 := UInt8.lt_iff_toNat_lt.2 (by omega)
    have hback : CodePoint.ofNat c.val.toUInt8.toNat = c :=
      Fin.ext (by simp only [CodePoint.ofNat]; omega)
    cases h
    simp only [List.singleton_append, leading?, if_pos hascii, hback, List.length_singleton]
  · split at h
    · rename_i hn hn'
      have hnat := toNat_toUInt8 (n := 0xC0 + c.val / 0x40) (by omega)
      have hsurrogate : c.isSurrogate = false := by simp [CodePoint.isSurrogate]; omega
      have hlead : (0xC0 : UInt8).toNat = 0xC0 ∧ (0xDF : UInt8).toNat = 0xDF := ⟨rfl, rfl⟩
      cases h
      refine leading?_of_pair? (by omega) ?_ rest
      unfold pair?
      rw [if_pos (between_iff.2 (by omega)), hnat]
      refine Option.bind_eq_some_iff.2 ⟨_, continuation?_toUInt8 (by omega), ?_⟩
      exact scalar?_val (by omega) (by omega) hsurrogate
    · split at h
      · cases h
      · rename_i hn hn' hsurrogate
        have hsurrogate := Bool.eq_false_iff.2 hsurrogate
        split at h
        · have hnat := toNat_toUInt8 (n := 0xE0 + c.val / 0x1000) (by omega)
          have hlead : (0xE0 : UInt8).toNat = 0xE0 ∧ (0xEF : UInt8).toNat = 0xEF := ⟨rfl, rfl⟩
          cases h
          refine leading?_of_triple? (by omega) ?_ rest
          unfold triple?
          rw [if_pos (between_iff.2 (by omega)), hnat]
          refine Option.bind_eq_some_iff.2 ⟨_, continuation?_toUInt8 (by omega), ?_⟩
          refine Option.bind_eq_some_iff.2 ⟨_, continuation?_toUInt8 (by omega), ?_⟩
          exact scalar?_val (by omega) (by omega) hsurrogate
        · have hnat := toNat_toUInt8 (n := 0xF0 + c.val / 0x40000) (by omega)
          have hlead : (0xF0 : UInt8).toNat = 0xF0 ∧ (0xF7 : UInt8).toNat = 0xF7 := ⟨rfl, rfl⟩
          cases h
          refine leading?_of_quadruple? (by omega) ?_ rest
          unfold quadruple?
          rw [if_pos (between_iff.2 (by omega)), hnat]
          refine Option.bind_eq_some_iff.2 ⟨_, continuation?_toUInt8 (by omega), ?_⟩
          refine Option.bind_eq_some_iff.2 ⟨_, continuation?_toUInt8 (by omega), ?_⟩
          refine Option.bind_eq_some_iff.2 ⟨_, continuation?_toUInt8 (by omega), ?_⟩
          exact scalar?_val (by omega) (by omega) hsurrogate

theorem decode_of_encode {t : Text} {bytes : Bytes} (h : encode t = some bytes) :
    decode bytes = some t := by
  induction t generalizing bytes with
  | nil =>
    cases h
    rfl
  | cons c t ih =>
    rw [encode_cons] at h
    rcases Option.bind_eq_some_iff.1 h with ⟨first, hfirst, h⟩
    rcases Option.map_eq_some_iff.1 h with ⟨rest, hrest, rfl⟩
    have hlead := leading?_of_encodePoint hfirst rest
    have htail : (pieces rest).mapM Piece.point? = some t := ih hrest
    -- The first byte is looked at, and the others of the code point are left out.
    cases first with
    | nil => exact absurd (encodePoint_of_leading? hlead).1 (Nat.lt_irrefl 0)
    | cons b first =>
      rw [List.cons_append] at hlead ⊢
      unfold decode pieces
      rw [piecesAfter, hlead]
      dsimp only
      rw [piecesAfter_eq, List.length_cons, Nat.add_sub_cancel, List.drop_left, List.mapM_cons, htail]
      rfl

theorem decode_eq_some_iff {t : Text} {bytes : Bytes} :
    decode bytes = some t ↔ encode t = some bytes :=
  ⟨encode_of_decode, decode_of_encode⟩

end Utf8

end AffectedTests
