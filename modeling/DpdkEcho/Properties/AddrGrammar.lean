import DpdkEcho.Properties.IpText
import DpdkEcho.Properties.MacText

/-!
# What the address parsers accept

`str_to_ip` and `_parse_no_arp_arg` are meant to refuse what is no address, and they check the
number of conversions and the number of tokens. They do not see the size of a number, what is in
a token, or what stands behind the last number.

* `strToIp_exact_iff`: the texts on which `str_to_ip` keeps to its grammar
* `parseNoArpArg_accepts_iff`: the texts `_parse_no_arp_arg` accepts
* `parseNoArpArg_exact_iff`: those on which it keeps to its grammar
-/

namespace DpdkEcho

open Infra

/-! ## IP addresses -/

/-- A number of an address: digits, with a value that fits a byte. -/
def Octet (t : CStr) (v : Nat) : Prop := t ≠ [] ∧ digitsValue 0 t = some v ∧ v ≤ 255

/-- The text of an address: four numbers with dots between them. -/
def IpAddrText (s : CStr) (x : UInt32) : Prop :=
  ∃ (a b c d : CStr) (i j k l : Nat), Octet a i ∧ Octet b j ∧ Octet c k ∧ Octet d l ∧
    s = quadText a b c d ∧ x.toNat = i * 2 ^ 24 + j * 2 ^ 16 + k * 2 ^ 8 + l

/-- Where the text starts with four numbers as `%hhu` reads them, there is no white space and no
sign before a number, no number is above 255, and there is nothing behind the last one. -/
def PlainNumbers (s : CStr) : Prop :=
  ∀ (a b c d : DecField) (tail : CStr), NoDigit tail →
    s = quadText a.text b.text c.text (d.text ++ tail) →
      (∀ f ∈ [a, b, c, d], f.Plain ∧ f.value ≤ 255) ∧ tail = []

/-- The field of a number. -/
def Octet.field {t : CStr} {v : Nat} (h : Octet t v) : DecField := .ofDigits t v h.1 h.2.1

theorem Octet.toNat_byte {t : CStr} {v : Nat} (h : Octet t v) : h.field.byte.toNat = v :=
  DecField.toNat_byte h.field (show Sign.none ≠ .minus by decide) h.2.2

theorem octet_of_plain {f : DecField} (hplain : f.Plain) (hv : f.value ≤ 255) :
    Octet f.text f.value ∧ f.byte.toNat = f.value := by
  obtain ⟨hblanks, hsign⟩ := hplain
  have htext : f.text = f.digits := by
    rw [DecField.text, hblanks, hsign]
    rfl
  rw [htext]
  refine ⟨⟨f.digits_ne, f.denotes, hv⟩, DecField.toNat_byte f ?_ hv⟩
  rw [hsign]
  decide

/-- The text of an address is read as that address. -/
theorem strToIp_of_ipAddrText {s : CStr} {x : UInt32} (h : IpAddrText s x) :
    strToIp s = some x := by
  obtain ⟨a, b, c, d, i, j, k, l, ha, hb, hc, hd, rfl, hx⟩ := h
  have hread := strToIp_fields ha.field hb.field hc.field hd.field noDigit_nil
  rw [List.append_nil] at hread
  refine hread.trans (congrArg some (UInt32.toNat_inj.mp ?_))
  rw [makeIpAddr_toNat, ha.toNat_byte, hb.toNat_byte, hc.toNat_byte, hd.toNat_byte, hx]

/-- There is no other reading of the text of an address. -/
theorem plainNumbers_of_ipAddrText {s : CStr} {x : UInt32} (h : IpAddrText s x) :
    PlainNumbers s := by
  obtain ⟨a, b, c, d, i, j, k, l, ha, hb, hc, hd, rfl, -⟩ := h
  intro a' b' c' d' tail htail heq
  obtain ⟨hpa, hva, h1⟩ :=
    a'.plain_of_text_eq ha.1 ha.2.1 (noDigit_dot _) (noDigit_dot _) heq.symm
  obtain ⟨hpb, hvb, h2⟩ :=
    b'.plain_of_text_eq hb.1 hb.2.1 (noDigit_dot _) (noDigit_dot _) (List.cons.inj h1).2
  obtain ⟨hpc, hvc, h3⟩ :=
    c'.plain_of_text_eq hc.1 hc.2.1 (noDigit_dot _) (noDigit_dot _) (List.cons.inj h2).2
  have hlast : d'.text ++ tail = d ++ [] := by rw [List.append_nil, (List.cons.inj h3).2]
  obtain ⟨hpd, hvd, rfl⟩ := d'.plain_of_text_eq hd.1 hd.2.1 htail noDigit_nil hlast
  refine ⟨fun f hf => ?_, rfl⟩
  simp only [List.mem_cons, List.not_mem_nil, or_false] at hf
  rcases hf with rfl | rfl | rfl | rfl
  · exact ⟨hpa, hva ▸ ha.2.2⟩
  · exact ⟨hpb, hvb ▸ hb.2.2⟩
  · exact ⟨hpc, hvc ▸ hc.2.2⟩
  · exact ⟨hpd, hvd ▸ hd.2.2⟩

/-- **`str_to_ip` keeps to its grammar exactly on the texts with plain numbers.** -/
theorem strToIp_exact_iff (s : CStr) :
    (∀ x, strToIp s = some x ↔ IpAddrText s x) ↔ PlainNumbers s := by
  constructor
  · intro h a b c d tail htail heq
    have hread := strToIp_fields a b c d htail
    rw [← heq] at hread
    exact plainNumbers_of_ipAddrText ((h _).mp hread) a b c d tail htail heq
  · intro hplain x
    refine ⟨fun h => ?_, strToIp_of_ipAddrText⟩
    obtain ⟨a, b, c, d, tail, heq, htail, rfl⟩ := strToIp_split h
    obtain ⟨hfields, rfl⟩ := hplain a b c d tail htail heq
    obtain ⟨⟨hpa, hva⟩, ⟨hpb, hvb⟩, ⟨hpc, hvc⟩, hpd, hvd⟩ := by simpa using hfields
    obtain ⟨ha, hba⟩ := octet_of_plain hpa hva
    obtain ⟨hb, hbb⟩ := octet_of_plain hpb hvb
    obtain ⟨hc, hbc⟩ := octet_of_plain hpc hvc
    obtain ⟨hd, hbd⟩ := octet_of_plain hpd hvd
    rw [List.append_nil] at heq
    refine ⟨_, _, _, _, _, _, _, _, ha, hb, hc, hd, heq, ?_⟩
    rw [makeIpAddr_toNat, hba, hbb, hbc, hbd]

/-! ## Hardware addresses -/

/-- Tokens, each behind some colons and in front of one, and a rest. -/
def groupsText : List (CStr × CStr) → CStr → CStr
  | [], rest => rest
  | (colons, tok) :: gs, rest => colons ++ (tok ++ ':' :: groupsText gs rest)

/-- The first part is colons, the second a token. -/
def ColonsToken (g : CStr × CStr) : Prop :=
  (∀ c ∈ g.1, c ∈ [':']) ∧ g.2 ≠ [] ∧ ∀ c ∈ g.2, c ∉ [':']

/-- Where the text is five tokens and a rest as `strtok` reads them, no colon is repeated, and the
five tokens and the rest are one or two hexadecimal digits each. -/
def PlainGroups (s : CStr) : Prop :=
  ∀ (gs : List (CStr × CStr)) (rest : CStr), gs.length = 5 → (∀ g ∈ gs, ColonsToken g) →
    rest ≠ [] → s = groupsText gs rest →
      (∀ g ∈ gs, g.1 = [] ∧ hexGroup g.2 ≠ none) ∧ hexGroup rest ≠ none

/-- The text of a hardware address. -/
def MacAddrText (s : CStr) : Prop := ∃ mac : EtherAddr, MacText s mac.addrBytes

theorem strtok_group {g : CStr × CStr} (h : ColonsToken g) (rest : CStr) :
    strtok [':'] (g.1 ++ (g.2 ++ ':' :: rest)) = some (g.2, rest) :=
  strtok_append h.1 h.2.1 h.2.2 List.mem_cons_self

/-- Five tokens and a rest are accepted, whatever they are. -/
theorem parseMacGroups_groupsText : ∀ {gs : List (CStr × CStr)} {rest : CStr} (i : Nat)
    (mac : List UInt8), (∀ g ∈ gs, ColonsToken g) →
      ∃ mac', parseMacGroups gs.length i mac (groupsText gs rest) = some (mac', rest)
  | [], rest, i, mac, _ => ⟨mac, rfl⟩
  | g :: gs, rest, i, mac, hgs => by
    have hstep := strtok_group (hgs g List.mem_cons_self) (groupsText gs rest)
    obtain ⟨mac', hmac'⟩ := @parseMacGroups_groupsText gs rest (i + 1) (setMacByte mac i g.2)
      fun g' hg' => hgs g' (List.mem_cons_of_mem _ hg')
    refine ⟨mac', ?_⟩
    rw [groupsText, List.length_cons, parseMacGroups, hstep]
    exact hmac'

/-- What the loop consumed, if it left something. -/
theorem parseMacGroups_split : ∀ {n i : Nat} {mac mac' : List UInt8} {s rest : CStr},
    parseMacGroups n i mac s = some (mac', rest) → rest ≠ [] →
      ∃ gs : List (CStr × CStr), gs.length = n ∧ (∀ g ∈ gs, ColonsToken g) ∧ s = groupsText gs rest
  | 0, i, mac, mac', s, rest, h, hrest => by
    cases h
    exact ⟨[], rfl, by simp, rfl⟩
  | n + 1, i, mac, mac', s, rest, h, hrest => by
    rw [parseMacGroups] at h
    cases htok : strtok [':'] s with
    | none =>
      rw [htok] at h
      cases h
    | some x =>
      obtain ⟨tok, s'⟩ := x
      rw [htok] at h
      obtain ⟨gs, hlen, hgs, rfl⟩ := parseMacGroups_split h hrest
      obtain ⟨skipped, tail, hs, hskip, hne, hnot, htail⟩ := strtok_split htok
      have hnil : groupsText gs rest ≠ [] := by
        cases gs with
        | nil => exact hrest
        | cons g gs => simp [groupsText]
      rcases htail with ⟨-, hend⟩ | ⟨d, hd, htail⟩
      · exact absurd hend hnil
      · obtain rfl := List.mem_singleton.mp hd
        refine ⟨(skipped, tok) :: gs, by rw [List.length_cons, hlen], ?_, by rw [hs, htail]; rfl⟩
        intro g hg
        rcases List.mem_cons.mp hg with rfl | hg
        · exact ⟨hskip, hne, hnot⟩
        · exact hgs g hg

/-- **What `_parse_no_arp_arg` accepts**: five tokens and a rest. -/
theorem parseNoArpArg_accepts_iff (mac : List UInt8) (s : CStr) :
    (∃ mac', parseNoArpArg mac s = .ok mac') ↔
      ∃ (gs : List (CStr × CStr)) (rest : CStr), gs.length = 5 ∧ (∀ g ∈ gs, ColonsToken g) ∧
        rest ≠ [] ∧ s = groupsText gs rest := by
  constructor
  · rintro ⟨mac', h⟩
    rw [parseNoArpArg] at h
    cases hloop : parseMacGroups 5 0 mac s with
    | none =>
      rw [hloop] at h
      cases h
    | some x =>
      obtain ⟨mac1, rest⟩ := x
      have hrest : rest ≠ [] := by
        rintro rfl
        rw [hloop] at h
        cases h
      obtain ⟨gs, hlen, hgs, hs⟩ := parseMacGroups_split hloop hrest
      exact ⟨gs, rest, hlen, hgs, hrest, hs⟩
  · rintro ⟨gs, rest, hlen, hgs, hrest, rfl⟩
    obtain ⟨mac', hloop⟩ := @parseMacGroups_groupsText gs rest 0 mac hgs
    rw [hlen] at hloop
    refine ⟨setMacByte mac' 5 rest, ?_⟩
    rw [parseNoArpArg, hloop]
    simp only [strtok_nil, if_neg hrest]

/-- Six groups of digits. -/
theorem macAddrText_iff (s : CStr) : MacAddrText s ↔
    ∃ ts : List CStr, ts.length = 6 ∧ (∀ t ∈ ts, hexGroup t ≠ none) ∧ s = [':'].intercalate ts := by
  constructor
  · rintro ⟨mac, ts, hts, rfl⟩
    refine ⟨ts, ?_, fun t ht hnone => ?_, rfl⟩
    · simpa [mac.length_eq] using congrArg List.length hts
    · have hmem : none ∈ mac.addrBytes.map some := by
        rw [← hts, ← hnone]
        exact List.mem_map_of_mem ht
      simp at hmem
  · rintro ⟨ts, hlen, hts, rfl⟩
    refine ⟨⟨ts.map fun t => (hexGroup t).getD 0, by simp [hlen]⟩, ts, ?_, rfl⟩
    rw [List.map_map]
    refine List.map_congr_left fun t ht => ?_
    obtain ⟨b, hb⟩ := Option.ne_none_iff_exists'.mp (hts t ht)
    simp [hb]

theorem groupsText_eq_intercalate : ∀ {gs : List (CStr × CStr)} (rest : CStr),
    (∀ g ∈ gs, g.1 = []) → groupsText gs rest = [':'].intercalate (gs.map Prod.snd ++ [rest])
  | [], rest, _ => by simp [groupsText]
  | (colons, tok) :: gs, rest, h => by
    obtain rfl : colons = [] := h _ List.mem_cons_self
    rw [groupsText, groupsText_eq_intercalate rest fun g hg => h g (List.mem_cons_of_mem _ hg),
      List.map_cons, List.cons_append, intercalate_colon (by simp), List.nil_append]

/-- There is no other reading of groups of digits. -/
theorem groupsText_unique : ∀ {gs : List (CStr × CStr)} {ts : List CStr} {rest t : CStr},
    gs.length = ts.length → (∀ g ∈ gs, ColonsToken g) → (∀ t ∈ ts, hexGroup t ≠ none) →
    [':'].intercalate (ts ++ [t]) = groupsText gs rest →
      (∀ g ∈ gs, g.1 = [] ∧ g.2 ∈ ts) ∧ rest = t
  | [], [], rest, t, _, _, _, h => by
    refine ⟨by simp, ?_⟩
    simpa [groupsText] using h.symm
  | g :: gs, t' :: ts, rest, t, hlen, hgs, hts, h => by
    obtain ⟨b, hb⟩ := Option.ne_none_iff_exists'.mp (hts t' List.mem_cons_self)
    rw [List.cons_append, intercalate_colon (by simp), groupsText] at h
    -- both sides start with the token that `strtok` finds
    have htok := strtok_group (hgs g List.mem_cons_self) (groupsText gs rest)
    rw [← h, strtok_colon hb] at htok
    obtain ⟨htok, hrest⟩ := Prod.mk.inj (Option.some.inj htok)
    have hcolons : g.1 = [] := by
      rw [← htok, ← hrest] at h
      exact List.self_eq_append_left.mp h
    obtain ⟨htail, hlast⟩ := groupsText_unique (Nat.succ.inj hlen)
      (fun g hg => hgs g (List.mem_cons_of_mem _ hg))
      (fun t ht => hts t (List.mem_cons_of_mem _ ht)) hrest
    refine ⟨fun g' hg' => ?_, hlast⟩
    rcases List.mem_cons.mp hg' with rfl | hg'
    · exact ⟨hcolons, htok ▸ List.mem_cons_self⟩
    · exact ⟨(htail g' hg').1, List.mem_cons_of_mem _ (htail g' hg').2⟩

theorem plainGroups_of_macAddrText {s : CStr} (h : MacAddrText s) : PlainGroups s := by
  obtain ⟨ts, hlen, hts, rfl⟩ := (macAddrText_iff s).mp h
  intro gs rest hgs5 hgs hrest heq
  obtain ⟨init, t, rfl, hinit⟩ := exists_concat_of_length hlen
  obtain ⟨hgroups, rfl⟩ := groupsText_unique (hgs5.trans hinit.symm) hgs
    (fun t ht => hts t (List.mem_append_left _ ht)) heq
  refine ⟨fun g hg => ⟨(hgroups g hg).1, ?_⟩, ?_⟩
  · exact hts _ (List.mem_append_left _ (hgroups g hg).2)
  · exact hts _ (List.mem_append_right _ List.mem_cons_self)

/-- Groups of digits are tokens. -/
theorem exists_groupsText_of_macAddrText {s : CStr} (h : MacAddrText s) :
    ∃ (gs : List (CStr × CStr)) (rest : CStr), gs.length = 5 ∧ (∀ g ∈ gs, ColonsToken g) ∧
      rest ≠ [] ∧ s = groupsText gs rest := by
  obtain ⟨ts, hlen, hts, rfl⟩ := (macAddrText_iff s).mp h
  obtain ⟨init, t, rfl, hinit⟩ := exists_concat_of_length hlen
  have htoken : ∀ t' ∈ init ++ [t], t' ≠ [] ∧ ∀ c ∈ t', c ≠ ':' := by
    intro t' ht'
    obtain ⟨b, hb⟩ := Option.ne_none_iff_exists'.mp (hts t' ht')
    exact hexGroup_token hb
  refine ⟨init.map fun t => ([], t), t, by rw [List.length_map, hinit], ?_, ?_, ?_⟩
  · intro g hg
    obtain ⟨t', ht', rfl⟩ := List.mem_map.mp hg
    obtain ⟨hne, hcolon⟩ := htoken t' (List.mem_append_left _ ht')
    exact ⟨by simp, hne, by simpa using hcolon⟩
  · exact (htoken t (List.mem_append_right _ List.mem_cons_self)).1
  · rw [groupsText_eq_intercalate]
    · simp [Function.comp_def]
    · intro g hg
      obtain ⟨t', -, rfl⟩ := List.mem_map.mp hg
      rfl

/-- **`_parse_no_arp_arg` keeps to its grammar exactly on the texts with plain groups.** -/
theorem parseNoArpArg_exact_iff (mac : List UInt8) (s : CStr) :
    ((∃ mac', parseNoArpArg mac s = .ok mac') ↔ MacAddrText s) ↔ PlainGroups s := by
  rw [parseNoArpArg_accepts_iff]
  constructor
  · intro h gs rest hlen hgs hrest heq
    have hmac := h.mp ⟨gs, rest, hlen, hgs, hrest, heq⟩
    exact plainGroups_of_macAddrText hmac gs rest hlen hgs hrest heq
  · intro hplain
    refine ⟨?_, exists_groupsText_of_macAddrText⟩
    rintro ⟨gs, rest, hlen, hgs, hrest, heq⟩
    obtain ⟨hgroups, hlast⟩ := hplain gs rest hlen hgs hrest heq
    refine (macAddrText_iff s).mpr ⟨gs.map Prod.snd ++ [rest], by simp [hlen], ?_, ?_⟩
    · intro t ht
      rcases List.mem_append.mp ht with ht | ht
      · obtain ⟨g, hg, rfl⟩ := List.mem_map.mp ht
        exact (hgroups g hg).2
      · rw [List.mem_singleton.mp ht]
        exact hlast
    · rw [heq, groupsText_eq_intercalate rest fun g hg => (hgroups g hg).1]

/-! ## Both parsers -/

/--
**The address parsers keep to their grammars exactly where a text that they can take apart is
plain**: no white space, no sign, no number above 255 and nothing behind the last one for
`str_to_ip`; no repeated colon and one or two digits in each group for `_parse_no_arp_arg`.
-/
theorem addr_parsers_exact_iff (s : CStr) (mac : List UInt8) :
    ((∀ x, strToIp s = some x ↔ IpAddrText s x) ↔ PlainNumbers s) ∧
    (((∃ mac', parseNoArpArg mac s = .ok mac') ↔ MacAddrText s) ↔ PlainGroups s) :=
  ⟨strToIp_exact_iff s, parseNoArpArg_exact_iff mac s⟩

/-- A number above 255, text behind the address, and letters that are no digits. -/
theorem addr_parsers_accept_more :
    strToIp "256.1.1.1".toList = some 0x00010101 ∧ (¬∃ x, IpAddrText "256.1.1.1".toList x) ∧
    strToIp "10.0.0.1x".toList = some 0x0A000001 ∧ (¬∃ x, IpAddrText "10.0.0.1x".toList x) ∧
    parseNoArpArg (List.replicate 6 0) "zz:zz:zz:zz:zz:zz".toList = .ok (List.replicate 6 0) ∧
    ¬MacAddrText "zz:zz:zz:zz:zz:zz".toList := by
  refine ⟨rfl, ?_, rfl, ?_, rfl, ?_⟩
  · rintro ⟨x, hx⟩
    have hplain := plainNumbers_of_ipAddrText hx
      (.ofDigits "256".toList 256 (by decide) rfl) (.ofDigits "1".toList 1 (by decide) rfl)
      (.ofDigits "1".toList 1 (by decide) rfl) (.ofDigits "1".toList 1 (by decide) rfl) []
      noDigit_nil rfl
    have hvalue := (hplain.1 _ List.mem_cons_self).2
    exact absurd hvalue (show ¬256 ≤ 255 by decide)
  · rintro ⟨x, hx⟩
    have hplain := plainNumbers_of_ipAddrText hx
      (.ofDigits "10".toList 10 (by decide) rfl) (.ofDigits "0".toList 0 (by decide) rfl)
      (.ofDigits "0".toList 0 (by decide) rfl) (.ofDigits "1".toList 1 (by decide) rfl) ['x']
      (noDigit_cons rfl []) rfl
    cases hplain.2
  · intro h
    have hplain := plainGroups_of_macAddrText h (List.replicate 5 ([], "zz".toList)) "zz".toList
      rfl (fun g hg => ?_) (by decide) rfl
    · exact hplain.2 rfl
    · rw [List.eq_of_mem_replicate hg]
      exact ⟨by simp, by simp, by simp⟩

end DpdkEcho
