import NoteStencil.Text.Utf8

/-! Texts written as octets are read back: the octets of a character take the decoder from between two characters to
between two characters again, with that character read. And only these octets do: what can be read at all is the
encoding of what it is read as. -/

namespace NoteStencil

open OpenChar

/-- Between two characters all that counts is that no octet is owed. -/
theorem run_idle {o : OpenChar} (octets : List UInt8) (h : o.owed = 0) : o.run octets = closed.run octets := by
  cases octets with
  | nil => simp [OpenChar.run, h, closed]
  | cons b rest => simp [OpenChar.run, OpenChar.step, h, closed]

theorem run_first {owed low high value b : Nat} (rest : List UInt8) (hb : b < 256)
    (h : firstOctet b = some ⟨owed, low, high, value⟩) :
    closed.run (UInt8.ofNat b :: rest) =
      if owed = 0 then (closed.run rest).map (Char.ofNat value :: ·)
      else OpenChar.run ⟨owed, low, high, value⟩ rest := by
  have hoctet : (UInt8.ofNat b).toNat = b := by simp [Nat.mod_eq_of_lt hb]
  rw [OpenChar.run]
  simp only [OpenChar.step, closed, if_true, hoctet, h]
  split
  · next howed => rw [run_idle rest howed, closed]
  · rfl

/-- An octet behind the first brings six more bits. -/
theorem run_next {owed low high value k : Nat} (rest : List UInt8) (hk : k < 0x40)
    (hbounds : low ≤ k + 0x80 ∧ k + 0x80 ≤ high) :
    OpenChar.run ⟨owed + 1, low, high, value⟩ (UInt8.ofNat (k + 0x80) :: rest) =
      if owed = 0 then (closed.run rest).map (Char.ofNat (value * 64 + k) :: ·)
      else OpenChar.run ⟨owed, 0x80, 0xBF, value * 64 + k⟩ rest := by
  have hoctet : (UInt8.ofNat (k + 0x80)).toNat = k + 0x80 := by
    have hlt : k + 0x80 < 256 := by omega
    simp [Nat.mod_eq_of_lt hlt]
  rw [OpenChar.run]
  simp only [OpenChar.step, Nat.succ_ne_zero, if_false, hoctet, OpenChar.nextOctet, hbounds, and_self, if_true,
    Nat.add_sub_cancel]
  split
  · next howed => rw [run_idle rest howed]
  · rfl

/-! ### Characters -/
theorem firstOctet_two {v : Nat} (hlow : 0x80 ≤ v) (hhigh : v < 0x800) :
    firstOctet (v / 64 + 0xC0) = some ⟨1, 0x80, 0xBF, v / 64⟩ := by
  rw [firstOctet, if_neg (by omega), if_pos (by omega), Nat.add_sub_cancel]

theorem firstOctet_three {v : Nat} (hlow : 0x800 ≤ v) (hhigh : v < 0x10000) (hvalid : v < 0xD800 ∨ 0xDFFF < v) :
    ∃ low high, firstOctet (v / 4096 + 0xE0) = some ⟨2, low, high, v / 4096⟩ ∧
      low ≤ v / 64 % 64 + 0x80 ∧ v / 64 % 64 + 0x80 ≤ high := by
  rw [firstOctet, if_neg (by omega), if_neg (by omega)]
  by_cases hfirst : v / 4096 = 0
  · exact ⟨0xA0, 0xBF, by rw [if_pos (by omega), hfirst], by omega, by omega⟩
  · rw [if_neg (by omega)]
    by_cases hsurrogates : v / 4096 = 0xD
    · exact ⟨0x80, 0x9F, by rw [if_pos (by omega), hsurrogates], by omega, by omega⟩
    · rw [if_neg (by omega), if_pos (by omega), Nat.add_sub_cancel]
      exact ⟨0x80, 0xBF, rfl, by omega, by omega⟩

theorem firstOctet_four {v : Nat} (hlow : 0x10000 ≤ v) (hhigh : v < 0x110000) :
    ∃ low high, firstOctet (v / 262144 + 0xF0) = some ⟨3, low, high, v / 262144⟩ ∧
      low ≤ v / 4096 % 64 + 0x80 ∧ v / 4096 % 64 + 0x80 ≤ high := by
  rw [firstOctet, if_neg (by omega), if_neg (by omega), if_neg (by omega), if_neg (by omega), if_neg (by omega)]
  by_cases hfirst : v / 262144 = 0
  · exact ⟨0x90, 0xBF, by rw [if_pos (by omega), hfirst], by omega, by omega⟩
  · rw [if_neg (by omega)]
    by_cases hlast : v / 262144 = 4
    · exact ⟨0x80, 0x8F, by rw [if_neg (by omega), if_pos (by omega), hlast], by omega, by omega⟩
    · rw [if_pos (by omega), Nat.add_sub_cancel]
      exact ⟨0x80, 0xBF, rfl, by omega, by omega⟩

theorem run_utf8EncodeChar (c : Char) (rest : List UInt8) :
    closed.run (String.utf8EncodeChar c ++ rest) = (closed.run rest).map (c :: ·) := by
  have hvalid : c.val.toNat < 0xD800 ∨ 0xDFFF < c.val.toNat ∧ c.val.toNat < 0x110000 := c.valid
  have hchar : Char.ofNat c.val.toNat = c := Char.ofNat_toNat c
  unfold String.utf8EncodeChar
  generalize c.val.toNat = v at hvalid hchar
  simp only
  by_cases hone : v ≤ 0x7F
  · have hfirst : firstOctet v = some ⟨0, 0, 0, v⟩ := by rw [firstOctet, if_pos (by omega)]
    rw [if_pos hone, List.singleton_append, run_first rest (by omega) hfirst, if_pos rfl, hchar]
  rw [if_neg hone]
  by_cases htwo : v ≤ 0x7FF
  · have hvalue : v / 64 * 64 + v % 64 = v := Nat.div_add_mod' v 64
    rw [if_pos htwo, Nat.mod_eq_of_lt (show v / 64 < 0x20 by omega), List.cons_append, List.singleton_append,
      run_first _ (by omega) (firstOctet_two (by omega) (by omega)), if_neg (by decide),
      run_next _ (by omega) (by omega), if_pos rfl, hvalue, hchar]
  rw [if_neg htwo]
  by_cases hthree : v ≤ 0xFFFF
  · have hvalue : (v / 4096 * 64 + v / 64 % 64) * 64 + v % 64 = v := by omega
    obtain ⟨low, high, hfirst, hbounds⟩ := firstOctet_three (v := v) (by omega) (by omega) (by omega)
    rw [if_pos hthree, Nat.mod_eq_of_lt (show v / 4096 < 0x10 by omega), List.cons_append, List.cons_append,
      List.singleton_append, run_first _ (by omega) hfirst, if_neg (by decide), run_next _ (by omega) hbounds,
      if_neg (by decide), run_next _ (by omega) (by omega), if_pos rfl, hvalue, hchar]
  · have hvalue : ((v / 262144 * 64 + v / 4096 % 64) * 64 + v / 64 % 64) * 64 + v % 64 = v := by omega
    obtain ⟨low, high, hfirst, hbounds⟩ := firstOctet_four (v := v) (by omega) (by omega)
    rw [if_neg hthree, Nat.mod_eq_of_lt (show v / 262144 < 0x08 by omega), List.cons_append, List.cons_append,
      List.cons_append, List.singleton_append, run_first _ (by omega) hfirst, if_neg (by decide),
      run_next _ (by omega) hbounds, if_neg (by decide), run_next _ (by omega) (by omega), if_neg (by decide),
      run_next _ (by omega) (by omega), if_pos rfl, hvalue, hchar]

theorem run_encoded (cs : List Char) : closed.run (cs.flatMap String.utf8EncodeChar) = some cs := by
  induction cs with
  | nil => rfl
  | cons c rest ih =>
    rw [List.flatMap_cons, run_utf8EncodeChar, ih]
    rfl

/-- A text is read back from its octets. -/
theorem decodeUtf8_encodeUtf8 (s : String) : decodeUtf8 (encodeUtf8 s) = some s := by
  rw [decodeUtf8, encodeUtf8, run_encoded]
  simp

theorem encodeUtf8_inj {s t : String} : encodeUtf8 s = encodeUtf8 t ↔ s = t := by
  constructor
  · intro h
    have hdecoded := decodeUtf8_encodeUtf8 t
    rw [← h, decodeUtf8_encodeUtf8] at hdecoded
    exact Option.some.inj hdecoded
  · exact congrArg encodeUtf8

theorem encodeUtf8_append (s t : String) : encodeUtf8 (s ++ t) = encodeUtf8 s ++ encodeUtf8 t := by
  simp [encodeUtf8]

/-! ### Octets that are read -/

theorem val_toNat_ofNat {v : Nat} (h : v < 0xD800 ∨ 0xDFFF < v ∧ v < 0x110000) : (Char.ofNat v).val.toNat = v := by
  have hvalid : v.isValidChar := h
  rw [Char.ofNat, dif_pos hvalid]
  rfl

theorem octet_eq {n : Nat} {b : UInt8} (h : n = b.toNat) : UInt8.ofNat n = b := by
  rw [h, UInt8.ofNat_toNat]

theorem encode_one {a : UInt8} (ha : a.toNat < 0x80) : String.utf8EncodeChar (Char.ofNat a.toNat) = [a] := by
  unfold String.utf8EncodeChar
  simp only [val_toNat_ofNat (show a.toNat < 0xD800 ∨ _ by omega)]
  rw [if_pos (by omega), octet_eq rfl]

theorem encode_two {a b : UInt8} (ha : 0xC2 ≤ a.toNat ∧ a.toNat ≤ 0xDF) (hb : 0x80 ≤ b.toNat ∧ b.toNat ≤ 0xBF) :
    String.utf8EncodeChar (Char.ofNat ((a.toNat - 0xC0) * 64 + (b.toNat - 0x80))) = [a, b] := by
  unfold String.utf8EncodeChar
  simp only [val_toNat_ofNat (v := (a.toNat - 0xC0) * 64 + (b.toNat - 0x80)) (by omega)]
  rw [if_neg (by omega), if_pos (by omega), octet_eq (b := a) (by omega), octet_eq (b := b) (by omega)]

theorem encode_three {a b c : UInt8} (ha : 0xE0 ≤ a.toNat ∧ a.toNat ≤ 0xEF) (hb : 0x80 ≤ b.toNat ∧ b.toNat ≤ 0xBF)
    (hc : 0x80 ≤ c.toNat ∧ c.toNat ≤ 0xBF) (hshort : a.toNat = 0xE0 → 0xA0 ≤ b.toNat)
    (hsurrogates : a.toNat = 0xED → b.toNat ≤ 0x9F) :
    String.utf8EncodeChar (Char.ofNat (((a.toNat - 0xE0) * 64 + (b.toNat - 0x80)) * 64 + (c.toNat - 0x80))) =
      [a, b, c] := by
  unfold String.utf8EncodeChar
  simp only [val_toNat_ofNat (v := ((a.toNat - 0xE0) * 64 + (b.toNat - 0x80)) * 64 + (c.toNat - 0x80)) (by omega)]
  rw [if_neg (by omega), if_neg (by omega), if_pos (by omega), octet_eq (b := a) (by omega),
    octet_eq (b := b) (by omega), octet_eq (b := c) (by omega)]

theorem encode_four {a b c d : UInt8} (ha : 0xF0 ≤ a.toNat ∧ a.toNat ≤ 0xF4) (hb : 0x80 ≤ b.toNat ∧ b.toNat ≤ 0xBF)
    (hc : 0x80 ≤ c.toNat ∧ c.toNat ≤ 0xBF) (hd : 0x80 ≤ d.toNat ∧ d.toNat ≤ 0xBF)
    (hshort : a.toNat = 0xF0 → 0x90 ≤ b.toNat) (hlast : a.toNat = 0xF4 → b.toNat ≤ 0x8F) :
    String.utf8EncodeChar (Char.ofNat
      ((((a.toNat - 0xF0) * 64 + (b.toNat - 0x80)) * 64 + (c.toNat - 0x80)) * 64 + (d.toNat - 0x80))) =
      [a, b, c, d] := by
  unfold String.utf8EncodeChar
  simp only [val_toNat_ofNat (v := (((a.toNat - 0xF0) * 64 + (b.toNat - 0x80)) * 64 + (c.toNat - 0x80)) * 64 +
    (d.toNat - 0x80)) (by omega)]
  rw [if_neg (by omega), if_neg (by omega), if_neg (by omega), octet_eq (b := a) (by omega),
    octet_eq (b := b) (by omega), octet_eq (b := c) (by omega), octet_eq (b := d) (by omega)]

/-- What the first octet of a character announces, by how many octets are to follow. -/
theorem firstOctet_cases {n owed low high value : Nat} (h : firstOctet n = some ⟨owed, low, high, value⟩) :
    (owed = 0 ∧ n < 0x80 ∧ value = n) ∨
    (owed = 1 ∧ 0xC2 ≤ n ∧ n ≤ 0xDF ∧ low = 0x80 ∧ high = 0xBF ∧ value = n - 0xC0) ∨
    (owed = 2 ∧ 0xE0 ≤ n ∧ n ≤ 0xEF ∧ 0x80 ≤ low ∧ high ≤ 0xBF ∧ (n = 0xE0 → low = 0xA0) ∧ (n = 0xED → high = 0x9F) ∧
      value = n - 0xE0) ∨
    (owed = 3 ∧ 0xF0 ≤ n ∧ n ≤ 0xF4 ∧ 0x80 ≤ low ∧ high ≤ 0xBF ∧ (n = 0xF0 → low = 0x90) ∧ (n = 0xF4 → high = 0x8F) ∧
      value = n - 0xF0) := by
  unfold firstOctet at h
  repeat' split at h
  all_goals
    simp only [Option.some.injEq, OpenChar.mk.injEq, reduceCtorEq] at h
  all_goals omega

theorem exists_of_run_owed {owed low high value : Nat} {octets : List UInt8} {cs : List Char}
    (h : OpenChar.run ⟨owed + 1, low, high, value⟩ octets = some cs) :
    ∃ b rest, octets = b :: rest ∧ low ≤ b.toNat ∧ b.toNat ≤ high ∧
      (if owed = 0 then (closed.run rest).map (Char.ofNat (value * 64 + (b.toNat - 0x80)) :: ·)
        else OpenChar.run ⟨owed, 0x80, 0xBF, value * 64 + (b.toNat - 0x80)⟩ rest) = some cs := by
  cases octets with
  | nil => cases h
  | cons b rest =>
    simp only [OpenChar.run, OpenChar.step, Nat.succ_ne_zero, if_false, OpenChar.nextOctet, Nat.add_sub_cancel] at h
    by_cases hbounds : low ≤ b.toNat ∧ b.toNat ≤ high
    · simp only [if_pos hbounds] at h
      refine ⟨b, rest, rfl, hbounds.1, hbounds.2, ?_⟩
      split at h
      · next howed => rwa [if_pos howed, ← run_idle (o := ⟨owed, 0x80, 0xBF, _⟩) rest howed]
      · next howed => rwa [if_neg howed]
    · simp [if_neg hbounds] at h

theorem exists_of_run_closed {octets : List UInt8} {c : Char} {cs : List Char}
    (h : (closed.run octets).map (c :: ·) = some cs) : ∃ ds, closed.run octets = some ds ∧ cs = c :: ds := by
  obtain ⟨ds, hds, rfl⟩ := Option.map_eq_some_iff.1 h
  exact ⟨ds, hds, rfl⟩

/-- A first character can only be read off its own octets. -/
theorem exists_encoded_of_run {a : UInt8} {octets : List UInt8} {cs : List Char} (h : closed.run (a :: octets) = some cs) :
    ∃ c ds rest, cs = c :: ds ∧ a :: octets = String.utf8EncodeChar c ++ rest ∧ closed.run rest = some ds := by
  cases ho : firstOctet a.toNat with
  | none => simp [OpenChar.run, OpenChar.step, closed, ho] at h
  | some o =>
    obtain ⟨owed, low, high, value⟩ := o
    rw [← a.ofNat_toNat, run_first octets a.toNat_lt ho] at h
    rcases firstOctet_cases ho with ⟨rfl, ha, rfl⟩ | ⟨rfl, ha, ha', rfl, rfl, hvalue⟩ |
      ⟨rfl, ha, ha', hlow, hhigh, hshort, hlast, hvalue⟩ | ⟨rfl, ha, ha', hlow, hhigh, hshort, hlast, hvalue⟩
    · rw [if_pos rfl] at h
      obtain ⟨ds, hds, rfl⟩ := exists_of_run_closed h
      refine ⟨_, ds, octets, rfl, ?_, hds⟩
      rw [encode_one ha, List.singleton_append]
    · rw [if_neg (by decide), hvalue] at h
      obtain ⟨b, rest, rfl, hb, hb', hrun⟩ := exists_of_run_owed h
      rw [if_pos rfl] at hrun
      obtain ⟨ds, hds, rfl⟩ := exists_of_run_closed hrun
      refine ⟨_, ds, rest, rfl, ?_, hds⟩
      rw [encode_two ⟨ha, ha'⟩ ⟨hb, hb'⟩, List.cons_append, List.singleton_append]
    · rw [if_neg (by decide), hvalue] at h
      obtain ⟨b, rest, rfl, hb, hb', hrun⟩ := exists_of_run_owed h
      rw [if_neg (by decide)] at hrun
      obtain ⟨c, rest, rfl, hc, hc', hrun⟩ := exists_of_run_owed hrun
      rw [if_pos rfl] at hrun
      obtain ⟨ds, hds, rfl⟩ := exists_of_run_closed hrun
      refine ⟨_, ds, rest, rfl, ?_, hds⟩
      rw [encode_three ⟨ha, ha'⟩ (by omega) ⟨hc, hc'⟩ (by omega) (by omega), List.cons_append, List.cons_append,
        List.singleton_append]
    · rw [if_neg (by decide), hvalue] at h
      obtain ⟨b, rest, rfl, hb, hb', hrun⟩ := exists_of_run_owed h
      rw [if_neg (by decide)] at hrun
      obtain ⟨c, rest, rfl, hc, hc', hrun⟩ := exists_of_run_owed hrun
      rw [if_neg (by decide)] at hrun
      obtain ⟨d, rest, rfl, hd, hd', hrun⟩ := exists_of_run_owed hrun
      rw [if_pos rfl] at hrun
      obtain ⟨ds, hds, rfl⟩ := exists_of_run_closed hrun
      refine ⟨_, ds, rest, rfl, ?_, hds⟩
      rw [encode_four ⟨ha, ha'⟩ (by omega) ⟨hc, hc'⟩ ⟨hd, hd'⟩ (by omega) (by omega), List.cons_append, List.cons_append,
        List.cons_append, List.singleton_append]

theorem octets_of_run {octets : List UInt8} {cs : List Char} (h : closed.run octets = some cs) :
    octets = cs.flatMap String.utf8EncodeChar := by
  induction cs generalizing octets with
  | nil =>
    cases octets with
    | nil => rfl
    | cons a rest =>
      obtain ⟨c, ds, -, hcs, -⟩ := exists_encoded_of_run h
      cases hcs
  | cons c cs ih =>
    cases octets with
    | nil => cases h
    | cons a rest =>
      obtain ⟨c', ds, rest', hcs, hoctets, hds⟩ := exists_encoded_of_run h
      obtain ⟨rfl, rfl⟩ := List.cons.inj hcs
      rw [hoctets, ih hds, List.flatMap_cons]

/-- Every text has exactly one encoding. -/
theorem decodeUtf8_eq_some_iff {octets : List UInt8} {s : String} : decodeUtf8 octets = some s ↔ octets = encodeUtf8 s := by
  constructor
  · intro h
    obtain ⟨cs, hcs, rfl⟩ := Option.map_eq_some_iff.1 h
    rw [octets_of_run hcs, encodeUtf8, String.toList_ofList]
  · rintro rfl
    exact decodeUtf8_encodeUtf8 s

end NoteStencil
