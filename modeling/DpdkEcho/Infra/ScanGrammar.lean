import Mathlib.Data.List.TakeWhile
import DpdkEcho.Infra.CString

/-!
# What the scanners match

The scanners of the C library are functions of the text. Here the text is described as what it is
made of, and each scanner is shown to take exactly such a text apart.

* `DecField`: white space, a sign and digits, with the number they denote
* `scanDecimal_field`, `scanDecimal_split`: `scanDecimal` takes a field off the text
* `strtok_append`, `strtok_split`: `strtok` takes a token between delimiters off the text
* `digitsValue_toDigits`: printing and reading digits
-/

namespace Infra

/-! ## Decimal fields -/

inductive Sign where
  | none
  | plus
  | minus
deriving DecidableEq, Repr

def Sign.text : Sign → CStr
  | .none => []
  | .plus => ['+']
  | .minus => ['-']

/-- A number as `strtol` and `%hhu` match it. -/
structure DecField where
  blanks : CStr
  sign : Sign
  digits : CStr
  value : Nat
  blanks_space : ∀ c ∈ blanks, isSpace c = true
  digits_ne : digits ≠ []
  denotes : digitsValue 0 digits = some value

def DecField.text (f : DecField) : CStr := f.blanks ++ (f.sign.text ++ f.digits)

/-- Digits and nothing else. -/
def DecField.Plain (f : DecField) : Prop := f.blanks = [] ∧ f.sign = .none

/-- The field of a sequence of digits. -/
def DecField.ofDigits (ds : CStr) (v : Nat) (hne : ds ≠ []) (hv : digitsValue 0 ds = some v) :
    DecField where
  blanks := []
  sign := .none
  digits := ds
  value := v
  blanks_space := by simp
  digits_ne := hne
  denotes := hv

/-- The first digit. -/
theorem exists_digit_of_digitsValue {s : CStr} {acc v : Nat} (h : digitsValue acc s = some v)
    (hs : s ≠ []) : ∃ c d rest, s = c :: rest ∧ decDigit c = some d := by
  cases s with
  | nil => exact absurd rfl hs
  | cons c rest =>
    rw [digitsValue_cons] at h
    obtain ⟨d, hd, -⟩ := Option.bind_eq_some_iff.mp h
    exact ⟨c, d, rest, rfl, hd⟩

/-- A digit is no sign. -/
theorem readSign_of_decDigit {c : Char} {d : Nat} (h : decDigit c = some d) (s : CStr) :
    readSign (c :: s) = (false, c :: s) := by
  have hminus : c ≠ '-' := by
    rintro rfl
    cases h
  have hplus : c ≠ '+' := by
    rintro rfl
    cases h
  rw [readSign, if_neg hminus, if_neg hplus]

/-- **A field is scanned up to the first character behind its digits.** -/
theorem scanDecimal_field (f : DecField) {rest : CStr} (hrest : NoDigit rest) :
    scanDecimal (f.text ++ rest) = some (decide (f.sign = .minus), f.value, rest) := by
  obtain ⟨c, d, ds, hdigits, hd⟩ := exists_digit_of_digitsValue f.denotes f.digits_ne
  have hdrop : (f.text ++ rest).dropWhile isSpace = f.sign.text ++ (f.digits ++ rest) := by
    rw [DecField.text, List.append_assoc, List.dropWhile_append_of_pos f.blanks_space,
      List.append_assoc, hdigits]
    cases f.sign with
    | none => simp [Sign.text, isSpace_of_decDigit hd]
    | plus => rfl
    | minus => rfl
  have hsign : readSign (f.sign.text ++ (f.digits ++ rest)) =
      (decide (f.sign = .minus), f.digits ++ rest) := by
    rw [hdigits]
    cases f.sign with
    | none => exact readSign_of_decDigit hd _
    | plus => rfl
    | minus => rfl
  rw [scanDecimal, hdrop, hsign]
  have hread := readDigits_append hrest f.denotes
  rw [hdigits, List.cons_append] at hread ⊢
  simp only [hd, hread]

/-- What `readDigits` consumed. -/
theorem readDigits_split : ∀ {s : CStr} {acc v : Nat} {rest : CStr},
    readDigits 10 decDigit acc s = (v, rest) →
      ∃ ds, s = ds ++ rest ∧ digitsValue acc ds = some v ∧ NoDigit rest
  | [], acc, v, rest, h => by
    cases h
    exact ⟨[], rfl, rfl, noDigit_nil⟩
  | c :: s, acc, v, rest, h => by
    rw [readDigits] at h
    cases hd : decDigit c with
    | none =>
      rw [hd] at h
      cases h
      exact ⟨[], rfl, rfl, noDigit_cons hd s⟩
    | some d =>
      rw [hd] at h
      obtain ⟨ds, hs, hv, hrest⟩ := readDigits_split h
      refine ⟨c :: ds, by rw [hs, List.cons_append], ?_, hrest⟩
      rw [digitsValue_cons, hd]
      exact hv

/-- What `readSign` consumed. -/
theorem readSign_split (s : CStr) :
    ∃ sign : Sign, s = sign.text ++ (readSign s).2 ∧ (readSign s).1 = decide (sign = .minus) := by
  cases s with
  | nil => exact ⟨.none, rfl, rfl⟩
  | cons c s =>
    rw [readSign]
    split
    · next hminus =>
      subst hminus
      exact ⟨.minus, rfl, rfl⟩
    · split
      · next hplus =>
        subst hplus
        exact ⟨.plus, rfl, rfl⟩
      · exact ⟨.none, rfl, rfl⟩

/-- **What `scanDecimal` matches is a field.** -/
theorem scanDecimal_split {s rest : CStr} {neg : Bool} {v : Nat}
    (h : scanDecimal s = some (neg, v, rest)) :
    ∃ f : DecField, s = f.text ++ rest ∧ NoDigit rest ∧ neg = decide (f.sign = .minus) ∧
      f.value = v := by
  obtain ⟨sign, hsign, hneg⟩ := readSign_split (s.dropWhile isSpace)
  rw [scanDecimal] at h
  cases hbody : (readSign (s.dropWhile isSpace)).2 with
  | nil =>
    simp only [hbody] at h
    cases h
  | cons c body =>
    cases hd : decDigit c with
    | none =>
      simp only [hbody, hd] at h
      cases h
    | some d =>
      cases hread : readDigits 10 decDigit 0 (c :: body) with
      | mk v' rest' =>
        simp only [hbody, hd, hread, Option.some.injEq, Prod.mk.injEq] at h
        obtain ⟨hn, rfl, rfl⟩ := h
        obtain ⟨ds, hds, hv, hrest⟩ := readDigits_split hread
        have hne : ds ≠ [] := by
          rintro rfl
          have hnone := hrest c body hds.symm
          rw [hd] at hnone
          cases hnone
        let f : DecField :=
          { blanks := s.takeWhile isSpace, sign := sign, digits := ds, value := v'
            blanks_space := fun c hc => List.mem_takeWhile_imp hc
            digits_ne := hne, denotes := hv }
        have htext : s = f.text ++ rest' := by
          rw [hbody, hds] at hsign
          calc s = s.takeWhile isSpace ++ s.dropWhile isSpace :=
                List.takeWhile_append_dropWhile.symm
            _ = s.takeWhile isSpace ++ (sign.text ++ (ds ++ rest')) := by rw [hsign]
            _ = f.text ++ rest' := by simp [f, DecField.text]
        exact ⟨f, htext, hrest, by rw [← hn, hneg], rfl⟩

/-- Digits at the front leave no room for another reading. -/
theorem DecField.plain_of_text_eq (f : DecField) {ds rest rest' : CStr} {v : Nat}
    (hds : ds ≠ []) (hv : digitsValue 0 ds = some v) (hrest : NoDigit rest)
    (hrest' : NoDigit rest') (h : f.text ++ rest = ds ++ rest') :
    f.Plain ∧ f.value = v ∧ rest = rest' := by
  obtain ⟨c, d, ds', rfl, hd⟩ := exists_digit_of_digitsValue hv hds
  have hblanks : f.blanks = [] := by
    cases hb : f.blanks with
    | nil => rfl
    | cons b bs =>
      rw [DecField.text, hb] at h
      have hbc : b = c := (List.cons.inj h).1
      have hspace := f.blanks_space b (by rw [hb]; exact List.mem_cons_self)
      rw [hbc, isSpace_of_decDigit hd] at hspace
      cases hspace
  have hsign : f.sign = .none := by
    cases hs : f.sign with
    | none => rfl
    | plus =>
      rw [DecField.text, hblanks, hs] at h
      obtain rfl := (List.cons.inj h).1
      cases hd
    | minus =>
      rw [DecField.text, hblanks, hs] at h
      obtain rfl := (List.cons.inj h).1
      cases hd
  have htext : f.text = f.digits := by
    rw [DecField.text, hblanks, hsign]
    rfl
  rw [htext] at h
  -- both sides are read by the same loop
  have hread := readDigits_append hrest f.denotes
  rw [h, readDigits_append hrest' hv] at hread
  exact ⟨⟨hblanks, hsign⟩, (Prod.mk.inj hread).1.symm, (Prod.mk.inj hread).2.symm⟩

/-! ## `%hhu` -/

/-- The byte `%hhu` stores for a field. -/
def DecField.byte (f : DecField) : UInt8 :=
  UInt8.ofNat (if 2 ^ 64 ≤ f.value then 2 ^ 64 - 1
    else if f.sign = .minus then (2 ^ 64 - f.value) % 2 ^ 64 else f.value)

theorem scanHhu_field (f : DecField) {rest : CStr} (hrest : NoDigit rest) :
    scanHhu (f.text ++ rest) = some (f.byte, rest) := by
  rw [scanHhu, scanDecimal_field f hrest]
  simp [DecField.byte]

theorem scanHhu_split {s rest : CStr} {b : UInt8} (h : scanHhu s = some (b, rest)) :
    ∃ f : DecField, s = f.text ++ rest ∧ NoDigit rest ∧ b = f.byte := by
  rw [scanHhu] at h
  cases hscan : scanDecimal s with
  | none =>
    rw [hscan] at h
    cases h
  | some x =>
    obtain ⟨neg, v, rest'⟩ := x
    rw [hscan] at h
    obtain ⟨f, hs, hrest, rfl, rfl⟩ := scanDecimal_split hscan
    simp only [decide_eq_true_eq, Option.some.injEq, Prod.mk.injEq] at h
    obtain ⟨hb, rfl⟩ := h
    exact ⟨f, hs, hrest, hb.symm⟩

/-- An unsigned number that fits is stored as it is. -/
theorem DecField.toNat_byte (f : DecField) (hsign : f.sign ≠ .minus) (hv : f.value ≤ 255) :
    f.byte.toNat = f.value := by
  rw [DecField.byte, if_neg (by omega), if_neg hsign, UInt8.toNat_ofNat']
  exact Nat.mod_eq_of_lt (by omega)

/-! ## Bytes in hexadecimal -/

/-- The byte that one or two hexadecimal digits denote. -/
def hexGroup : CStr → Option UInt8
  | [c] => (hexDigit c).map UInt8.ofNat
  | [c, c'] => (hexDigit c).bind fun d => (hexDigit c').map fun d' => UInt8.ofNat (d * 16 + d')
  | _ => none

/-- A hexadecimal digit is no white space and no sign. -/
theorem ne_of_hexDigit {c : Char} {d : Nat} (h : hexDigit c = some d) :
    isSpace c = false ∧ c ≠ '-' ∧ c ≠ '+' := by
  have hrange : 48 ≤ c.toNat := by
    unfold hexDigit at h
    split at h
    · omega
    · split at h
      · omega
      · split at h
        · omega
        · cases h
  have hne : ∀ a : Char, a.toNat < 48 → c ≠ a := by
    rintro a ha rfl
    omega
  exact ⟨isSpace_of_le hrange, hne '-' (by decide), hne '+' (by decide)⟩

theorem scanHexBody_one {c : Char} {d : Nat} (h : hexDigit c = some d) :
    scanHexBody 2 [c] = some d := by
  simp [scanHexBody, h, readDigits]

theorem scanHexBody_two {c c' : Char} {d d' : Nat} (h : hexDigit c = some d)
    (h' : hexDigit c' = some d') : scanHexBody 2 [c, c'] = some (d * 16 + d') := by
  have hx : ¬(c' = 'x' ∨ c' = 'X') := by
    rintro (rfl | rfl) <;> cases h'
  by_cases hc : c = '0'
  · subst hc
    obtain rfl : 0 = d := Option.some.inj h
    simp [scanHexBody, hx, h', readDigits]
  · simp [scanHexBody, hc, h, h', readDigits]

/-- **`%2hhx` stores the byte that one or two digits denote.** -/
theorem scan2hhx_hexGroup {t : CStr} {b : UInt8} (h : hexGroup t = some b) :
    scan2hhx t = some b := by
  match t, h with
  | [c], h =>
    obtain ⟨d, hd, rfl⟩ := Option.map_eq_some_iff.mp h
    obtain ⟨hspace, hminus, hplus⟩ := ne_of_hexDigit hd
    simp [scan2hhx, hspace, hminus, hplus, scanHexBody_one hd]
  | [c, c'], h =>
    obtain ⟨d, hd, h'⟩ := Option.bind_eq_some_iff.mp h
    obtain ⟨d', hd', rfl⟩ := Option.map_eq_some_iff.mp h'
    obtain ⟨hspace, hminus, hplus⟩ := ne_of_hexDigit hd
    simp [scan2hhx, hspace, hminus, hplus, scanHexBody_two hd hd']

/-- A group is not empty and has no colon in it. -/
theorem hexGroup_token {t : CStr} {b : UInt8} (h : hexGroup t = some b) :
    t ≠ [] ∧ ∀ c ∈ t, c ≠ ':' := by
  match t, h with
  | [c], h =>
    obtain ⟨d, hd, -⟩ := Option.map_eq_some_iff.mp h
    refine ⟨List.cons_ne_nil _ _, ?_⟩
    rintro c' hc' rfl
    obtain rfl := List.mem_singleton.mp hc'
    cases hd
  | [c, c'], h =>
    obtain ⟨d, hd, h'⟩ := Option.bind_eq_some_iff.mp h
    obtain ⟨d', hd', -⟩ := Option.map_eq_some_iff.mp h'
    refine ⟨List.cons_ne_nil _ _, ?_⟩
    rintro c'' hc'' rfl
    rcases List.mem_cons.mp hc'' with rfl | hc''
    · cases hd
    · obtain rfl := List.mem_singleton.mp hc''
      cases hd'

/-! ## Tokens -/

/-- A token between delimiters. -/
theorem strtok_append {delims skipped tok : List Char} {d : Char} {rest : CStr}
    (hskip : ∀ c ∈ skipped, c ∈ delims) (hne : tok ≠ []) (htok : ∀ c ∈ tok, c ∉ delims)
    (hd : d ∈ delims) : strtok delims (skipped ++ (tok ++ d :: rest)) = some (tok, rest) := by
  obtain ⟨c, tok', rfl⟩ := List.exists_cons_of_ne_nil hne
  have hc : c ∉ delims := htok c List.mem_cons_self
  have hdrop : (skipped ++ (c :: tok' ++ d :: rest)).dropWhile (· ∈ delims) =
      c :: (tok' ++ d :: rest) := by
    rw [List.dropWhile_append_of_pos (by simpa using hskip), List.cons_append,
      List.dropWhile_cons_of_neg (by simpa using hc)]
  have hword : ∀ c' ∈ c :: tok', decide (c' ∉ delims) = true := by simpa using htok
  rw [strtok, hdrop]
  simp only [← List.cons_append]
  rw [List.takeWhile_append_of_pos hword, List.dropWhile_append_of_pos hword,
    List.takeWhile_cons_of_neg (by simpa using hd), List.dropWhile_cons_of_neg (by simpa using hd),
    List.append_nil, List.drop_one, List.tail_cons]

/-- **What `strtok` consumed.** Behind the token there is a delimiter or the end. -/
theorem strtok_split {delims : List Char} {s tok rest : CStr}
    (h : strtok delims s = some (tok, rest)) :
    ∃ skipped tail, s = skipped ++ (tok ++ tail) ∧ (∀ c ∈ skipped, c ∈ delims) ∧ tok ≠ [] ∧
      (∀ c ∈ tok, c ∉ delims) ∧ (tail = [] ∧ rest = [] ∨ ∃ d ∈ delims, tail = d :: rest) := by
  rw [strtok] at h
  cases hdrop : s.dropWhile (· ∈ delims) with
  | nil =>
    rw [hdrop] at h
    cases h
  | cons c body =>
    simp only [hdrop, Option.some.injEq, Prod.mk.injEq] at h
    obtain ⟨rfl, rfl⟩ := h
    have hc : c ∉ delims := by
      have hhead := List.head?_dropWhile_not (fun c => decide (c ∈ delims)) s
      simpa [hdrop] using hhead
    refine ⟨s.takeWhile (· ∈ delims), (c :: body).dropWhile (· ∉ delims), ?_, ?_, ?_, ?_, ?_⟩
    · rw [List.takeWhile_append_dropWhile, ← hdrop, List.takeWhile_append_dropWhile]
    · intro c' hc'
      simpa using List.mem_takeWhile_imp hc'
    · rw [List.takeWhile_cons_of_pos (by simpa using hc)]
      exact List.cons_ne_nil _ _
    · intro c' hc'
      simpa using List.mem_takeWhile_imp hc'
    · cases htail : (c :: body).dropWhile (· ∉ delims) with
      | nil => exact .inl ⟨rfl, rfl⟩
      | cons d tail =>
        have hhead := List.head?_dropWhile_not (fun c => decide (c ∉ delims)) (c :: body)
        rw [htail] at hhead
        exact .inr ⟨d, by simpa using hhead, rfl⟩

/-- Without delimiters the token is the whole string. -/
theorem strtok_nil (s : CStr) : strtok [] s = if s = [] then none else some (s, []) := by
  cases s with
  | nil => rfl
  | cons c s =>
    have hall : s.dropWhile (fun _ => true) = [] := List.dropWhile_eq_nil_iff.mpr fun _ _ => rfl
    simp [strtok, hall]

/-! ## Decimal printing -/

theorem decDigit_digitChar {d : Nat} (h : d < 10) : decDigit (Nat.digitChar d) = some d := by
  rw [decDigit, Nat.toNat_digitChar_of_lt_ten h, if_pos (by omega)]
  congr 1
  omega

/-- **The digits that `%u` prints denote the number.** -/
theorem digitsValue_toDigits (n : Nat) : digitsValue 0 (Nat.toDigits 10 n) = some n := by
  induction n using Nat.strongRecOn with
  | _ n ih =>
    rw [Nat.toDigits_eq_if (by decide)]
    by_cases hn : n < 10
    · rw [if_pos hn, digitsValue_cons, decDigit_digitChar hn]
      simp [digitsValue]
    · rw [if_neg hn, digitsValue, List.foldlM_append]
      have hfront := ih (n / 10) (by omega)
      rw [digitsValue] at hfront
      simp only [hfront, List.foldlM_cons, List.foldlM_nil,
        decDigit_digitChar (Nat.mod_lt n (by decide : 0 < 10)), Option.map_some,
        Option.bind_eq_bind, Option.bind_some]
      exact congrArg some (Nat.div_add_mod' n 10)

end Infra
