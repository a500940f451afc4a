import ForeignCall.Text.Utf8

/-!
# Texts and their bytes

The bytes of a text are read back as that text: the encoding of each character is one piece, which
ends where the next one starts. A zero byte stands for the zero character and is part of no other,
so the first of both are found at the same place.
-/

namespace ForeignCall.Text.Utf8

/-! ### The first byte of a character -/

private theorem toNat_byte {m : Nat} (h : m < 256) : (UInt8.ofNat m).toNat = m :=
  UInt8.toNat_ofNat_of_lt' h

/-- The classes of a byte at the start of a piece, by its number. -/
theorem Lead.of_byte {m : Nat} (h : m < 256) :
    Lead.of (UInt8.ofNat m) =
      if m < 0x80 then .char (Char.ofNat m)
      else if m < 0xC2 then .illFormed
      else if m < 0xE0 then .pending ⟨[UInt8.ofNat m], m - 0xC0, 0, 0x80, 0xBF⟩
      else if m < 0xF0 then
        .pending ⟨[UInt8.ofNat m], m - 0xE0, 1, if m = 0xE0 then 0xA0 else 0x80,
          if m = 0xED then 0x9F else 0xBF⟩
      else if m < 0xF5 then
        .pending ⟨[UInt8.ofNat m], m - 0xF0, 2, if m = 0xF0 then 0x90 else 0x80,
          if m = 0xF4 then 0x8F else 0xBF⟩
      else .illFormed := by
  simp only [Lead.of, UInt8.lt_iff_toNat_lt, ← UInt8.toNat_inj, toNat_byte h, UInt8.reduceToNat]

/-! ### The bytes after the first -/

variable {p : Pending} {t n : Nat}

private theorem low_le_tail (t : Nat) : (0x80 : UInt8).toNat ≤ t + 128 := Nat.le_add_left _ _

private theorem tail_le_high (ht : t < 64) : t + 128 ≤ (0xBF : UInt8).toNat :=
  Nat.add_le_add_right (Nat.le_of_lt_succ ht) 128

private theorem accepts_tail (ht : t < 64) (hlow : p.low.toNat ≤ t + 128)
    (hhigh : t + 128 ≤ p.high.toNat) : p.accepts (UInt8.ofNat (t + 128)) = true := by
  simp only [Pending.accepts, Bool.and_eq_true, decide_eq_true_eq, UInt8.le_iff_toNat_le,
    toNat_byte (show t + 128 < 256 by omega)]
  exact ⟨hlow, hhigh⟩

/-- A byte that begins a character leaves the character pending. -/
theorem piecesFrom_lead {b : UInt8} (h : Lead.of b = .pending p) (rest : List UInt8) :
    piecesFrom none (b :: rest) = piecesFrom (some p) rest := by
  rw [piecesFrom, h]

/-- A byte within the bounds that is not the last is added to the character. -/
theorem piecesFrom_further {further : Nat} (hp : p.further = further + 1) (ht : t < 64)
    (hlow : p.low.toNat ≤ t + 128) (hhigh : t + 128 ≤ p.high.toNat) (rest : List UInt8) :
    piecesFrom (some p) (UInt8.ofNat (t + 128) :: rest) =
      piecesFrom (some ⟨p.bytes ++ [UInt8.ofNat (t + 128)], 64 * p.value + t, further, 0x80, 0xBF⟩)
        rest := by
  simp only [piecesFrom, accepts_tail ht hlow hhigh, ↓reduceIte, hp, Pending.push,
    toNat_byte (show t + 128 < 256 by omega), Nat.add_sub_cancel]

/-- A last byte within the bounds completes the character. -/
theorem piecesFrom_last (hp : p.further = 0) (ht : t < 64) (hlow : p.low.toNat ≤ t + 128)
    (hhigh : t + 128 ≤ p.high.toNat) (rest : List UInt8) :
    piecesFrom (some p) (UInt8.ofNat (t + 128) :: rest) =
      .char (Char.ofNat (64 * p.value + t)) :: piecesFrom none rest := by
  simp only [piecesFrom, accepts_tail ht hlow hhigh, ↓reduceIte, hp, Pending.finish,
    toNat_byte (show t + 128 < 256 by omega), Nat.add_sub_cancel]

/-! ### Whole characters -/

private theorem pieces_single (h : n ≤ 0x7F) (rest : List UInt8) :
    piecesFrom none (UInt8.ofNat n :: rest) = .char (Char.ofNat n) :: piecesFrom none rest := by
  have hlead : Lead.of (UInt8.ofNat n) = .char (Char.ofNat n) := by
    rw [Lead.of_byte (by omega), if_pos (by omega)]
  rw [piecesFrom, hlead]

private theorem pieces_double (h : 0x80 ≤ n) (h' : n ≤ 0x7FF) (rest : List UInt8) :
    piecesFrom none (UInt8.ofNat (n / 64 % 32 + 192) :: UInt8.ofNat (n % 64 + 128) :: rest) =
      .char (Char.ofNat n) :: piecesFrom none rest := by
  have hlead : Lead.of (UInt8.ofNat (n / 64 % 32 + 192)) =
      .pending ⟨[UInt8.ofNat (n / 64 % 32 + 192)], n / 64, 0, 0x80, 0xBF⟩ := by
    rw [Lead.of_byte (by omega), if_neg (by omega), if_neg (by omega), if_pos (by omega),
      show n / 64 % 32 + 192 - 0xC0 = n / 64 by omega]
  have ht : n % 64 < 64 := Nat.mod_lt _ (by decide)
  rw [piecesFrom_lead hlead, piecesFrom_last rfl ht (low_le_tail _) (tail_le_high ht),
    show 64 * (n / 64) + n % 64 = n from Nat.div_add_mod n 64]

/-- The first byte of three, and bounds that its second byte keeps to: a least first byte is
followed by a greater second one, for no shorter encoding would do, and surrogates are left out. -/
private theorem lead_triple (h : 0x800 ≤ n) (h' : n ≤ 0xFFFF) (hs : n < 0xD800 ∨ 0xDFFF < n) :
    ∃ low high : UInt8, Lead.of (UInt8.ofNat (n / 4096 % 16 + 224)) =
        .pending ⟨[UInt8.ofNat (n / 4096 % 16 + 224)], n / 4096, 1, low, high⟩ ∧
      low.toNat ≤ n / 64 % 64 + 128 ∧ n / 64 % 64 + 128 ≤ high.toNat := by
  refine ⟨if n / 4096 % 16 + 224 = 0xE0 then 0xA0 else 0x80,
    if n / 4096 % 16 + 224 = 0xED then 0x9F else 0xBF, ?_, ?_, ?_⟩
  · rw [Lead.of_byte (by omega), if_neg (by omega), if_neg (by omega), if_neg (by omega),
      if_pos (by omega), show n / 4096 % 16 + 224 - 0xE0 = n / 4096 by omega]
  · split
    · change 0xA0 ≤ n / 64 % 64 + 128
      omega
    · exact low_le_tail _
  · split
    · change n / 64 % 64 + 128 ≤ 0x9F
      omega
    · exact tail_le_high (Nat.mod_lt _ (by decide))

private theorem pieces_triple (h : 0x800 ≤ n) (h' : n ≤ 0xFFFF) (hs : n < 0xD800 ∨ 0xDFFF < n)
    (rest : List UInt8) :
    piecesFrom none (UInt8.ofNat (n / 4096 % 16 + 224) :: UInt8.ofNat (n / 64 % 64 + 128) ::
        UInt8.ofNat (n % 64 + 128) :: rest) =
      .char (Char.ofNat n) :: piecesFrom none rest := by
  obtain ⟨low, high, hlead, hlow, hhigh⟩ := lead_triple h h' hs
  have hsecond : n / 64 % 64 < 64 := Nat.mod_lt _ (by decide)
  have ht : n % 64 < 64 := Nat.mod_lt _ (by decide)
  rw [piecesFrom_lead hlead, piecesFrom_further rfl hsecond hlow hhigh,
    piecesFrom_last rfl ht (low_le_tail _) (tail_le_high ht),
    show 64 * (64 * (n / 4096) + n / 64 % 64) + n % 64 = n by omega]

/-- The first byte of four, and bounds that its second byte keeps to: a least first byte is
followed by a greater second one, and numbers beyond the last character are left out. -/
private theorem lead_quadruple (h : 0x10000 ≤ n) (h' : n < 0x110000) :
    ∃ low high : UInt8, Lead.of (UInt8.ofNat (n / 262144 % 8 + 240)) =
        .pending ⟨[UInt8.ofNat (n / 262144 % 8 + 240)], n / 262144, 2, low, high⟩ ∧
      low.toNat ≤ n / 4096 % 64 + 128 ∧ n / 4096 % 64 + 128 ≤ high.toNat := by
  refine ⟨if n / 262144 % 8 + 240 = 0xF0 then 0x90 else 0x80,
    if n / 262144 % 8 + 240 = 0xF4 then 0x8F else 0xBF, ?_, ?_, ?_⟩
  · rw [Lead.of_byte (by omega), if_neg (by omega), if_neg (by omega), if_neg (by omega),
      if_neg (by omega), if_pos (by omega),
      show n / 262144 % 8 + 240 - 0xF0 = n / 262144 by omega]
  · split
    · change 0x90 ≤ n / 4096 % 64 + 128
      omega
    · exact low_le_tail _
  · split
    · change n / 4096 % 64 + 128 ≤ 0x8F
      omega
    · exact tail_le_high (Nat.mod_lt _ (by decide))

private theorem pieces_quadruple (h : 0x10000 ≤ n) (h' : n < 0x110000) (rest : List UInt8) :
    piecesFrom none (UInt8.ofNat (n / 262144 % 8 + 240) :: UInt8.ofNat (n / 4096 % 64 + 128) ::
        UInt8.ofNat (n / 64 % 64 + 128) :: UInt8.ofNat (n % 64 + 128) :: rest) =
      .char (Char.ofNat n) :: piecesFrom none rest := by
  obtain ⟨low, high, hlead, hlow, hhigh⟩ := lead_quadruple h h'
  have hsecond : n / 4096 % 64 < 64 := Nat.mod_lt _ (by decide)
  have hthird : n / 64 % 64 < 64 := Nat.mod_lt _ (by decide)
  have ht : n % 64 < 64 := Nat.mod_lt _ (by decide)
  rw [piecesFrom_lead hlead, piecesFrom_further rfl hsecond hlow hhigh,
    piecesFrom_further rfl hthird (low_le_tail _) (tail_le_high hthird),
    piecesFrom_last rfl ht (low_le_tail _) (tail_le_high ht),
    show 64 * (64 * (64 * (n / 262144) + n / 4096 % 64) + n / 64 % 64) + n % 64 = n by omega]

/-- The encoding of a character is one piece. -/
theorem piecesFrom_encodeChar (c : Char) (rest : List UInt8) :
    piecesFrom none (String.utf8EncodeChar c ++ rest) = .char c :: piecesFrom none rest := by
  have hvalid : c.toNat < 0xD800 ∨ 0xDFFF < c.toNat ∧ c.toNat < 0x110000 := c.valid
  have hval : c.val.toNat = c.toNat := rfl
  conv => rhs; rw [← Char.ofNat_toNat c]
  simp only [String.utf8EncodeChar, hval]
  split
  · next h => exact pieces_single h rest
  · split
    · next h h' => exact pieces_double (by omega) h' rest
    · split
      · next h h' h'' => exact pieces_triple (by omega) h'' (by omega) rest
      · next h h' h'' => exact pieces_quadruple (by omega) (by omega) rest

/-- The bytes of a text are its characters, piece by piece. -/
theorem pieces_encode (cs : List Char) : pieces (encode cs) = cs.map .char := by
  induction cs with
  | nil => rfl
  | cons c cs ih =>
    rw [List.map_cons, ← ih, pieces, pieces, encode, List.flatMap_cons]
    exact piecesFrom_encodeChar c (encode cs)

/-- A text is read back from its bytes. -/
theorem decodeLossy_encode (cs : List Char) : decodeLossy (encode cs) = cs := by
  rw [decodeLossy, pieces_encode, List.map_map]
  exact List.map_id cs

/-! ### Zero bytes -/

private theorem byte_ne_zero {m : Nat} (h : m < 256) (hm : 0 < m) : UInt8.ofNat m ≠ 0 := by
  intro hzero
  have hnat := congrArg UInt8.toNat hzero
  rw [toNat_byte h] at hnat
  exact Nat.ne_of_gt hm hnat

/-- All bytes of a character but the zero character are other than zero. -/
theorem ne_zero_of_mem_encodeChar {c : Char} (hc : c ≠ '\x00') :
    ∀ b ∈ String.utf8EncodeChar c, b ≠ 0 := by
  have hpos : 0 < c.toNat := by
    refine Nat.pos_of_ne_zero fun hzero ↦ hc ?_
    rw [← Char.ofNat_toNat c, hzero]
  -- The first byte of a longer encoding is at least 192, and all others are at least 128.
  have hadd (m k : Nat) (hk : 128 ≤ k) (hm : m + k < 256) : UInt8.ofNat (m + k) ≠ 0 :=
    byte_ne_zero hm (by omega)
  have hval : c.val.toNat = c.toNat := rfl
  simp only [String.utf8EncodeChar, hval]
  split
  · next h =>
    simp only [List.mem_singleton, forall_eq]
    exact byte_ne_zero (by omega) hpos
  · split
    · simp only [List.mem_cons, List.not_mem_nil, or_false, forall_eq_or_imp, forall_eq]
      exact ⟨hadd _ 192 (by decide) (by omega), hadd _ 128 (by decide) (by omega)⟩
    · split
      · simp only [List.mem_cons, List.not_mem_nil, or_false, forall_eq_or_imp, forall_eq]
        exact ⟨hadd _ 224 (by decide) (by omega), hadd _ 128 (by decide) (by omega),
          hadd _ 128 (by decide) (by omega)⟩
      · simp only [List.mem_cons, List.not_mem_nil, or_false, forall_eq_or_imp, forall_eq]
        exact ⟨hadd _ 240 (by decide) (by omega), hadd _ 128 (by decide) (by omega),
          hadd _ 128 (by decide) (by omega), hadd _ 128 (by decide) (by omega)⟩

/-- The bytes of a text have a zero only if the text has. -/
theorem zero_notMem_encode {cs : List Char} (h : '\x00' ∉ cs) : 0 ∉ encode cs := by
  intro hmem
  obtain ⟨c, hc, hb⟩ := List.mem_flatMap.mp hmem
  exact ne_zero_of_mem_encodeChar (fun he ↦ h (he ▸ hc)) 0 hb rfl

/-- A text without a zero character has no zero byte to be found. -/
theorem findIdx?_zero_eq_none {cs : List Char} (h : '\x00' ∉ cs) :
    (encode cs).findIdx? (· = 0) = none := by
  rw [List.findIdx?_eq_none_iff]
  intro b hb
  exact decide_eq_false fun he ↦ zero_notMem_encode h (he ▸ hb)

/-- The first zero byte of a text stands where the zero character does. -/
theorem findIdx?_zero_append {before : List Char} (h : '\x00' ∉ before) (after : List Char) :
    (encode (before ++ '\x00' :: after)).findIdx? (· = 0) = some (encode before).length := by
  have hzero : (encode ('\x00' :: after)).findIdx? (· = 0) = some 0 := rfl
  rw [encode_append, List.findIdx?_append, findIdx?_zero_eq_none h, hzero]
  simp

/-- A zero byte of a text is found exactly where the first zero character stands. -/
theorem findIdx?_zero_eq_some_iff {cs : List Char} {k : Nat} :
    (encode cs).findIdx? (· = 0) = some k ↔
      ∃ before after, cs = before ++ '\x00' :: after ∧ '\x00' ∉ before ∧
        k = (encode before).length := by
  constructor
  · intro hfind
    by_cases hmem : '\x00' ∈ cs
    · obtain ⟨before, after, rfl, hbefore⟩ := List.eq_append_cons_of_mem hmem
      rw [findIdx?_zero_append hbefore] at hfind
      exact ⟨before, after, rfl, hbefore, (Option.some.inj hfind).symm⟩
    · rw [findIdx?_zero_eq_none hmem] at hfind
      cases hfind
  · rintro ⟨before, after, rfl, hbefore, rfl⟩
    exact findIdx?_zero_append hbefore after

end ForeignCall.Text.Utf8
