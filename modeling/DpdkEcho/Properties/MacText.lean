import DpdkEcho.Infra.ScanGrammar
import DpdkEcho.Config
import DpdkEcho.Client.ArpLoop

/-!
# The hardware address of `--no-arp`

`_parse_no_arp_arg` takes five tokens off the text and what is left as the sixth. It does not look
at what `sscanf` makes of them. `do_client` then copies six bytes for each destination, from an
address that moves by one byte from one destination to the next.

* `parseMacGroups_hex`: groups of one or two digits are stored in their places
* `parseNoArpArg_macText`: the address is stored as it is written
* `staticServerEth_eq_replicate_iff`: when every destination gets it
-/

namespace DpdkEcho

open Infra

/-! ## Groups of digits -/

/-- The text of an address: groups of one or two hexadecimal digits with colons between them. -/
def MacText (s : CStr) (bytes : List UInt8) : Prop :=
  ∃ ts : List CStr, ts.map hexGroup = bytes.map some ∧ s = [':'].intercalate ts

theorem setMacByte_hexGroup {t : CStr} {b : UInt8} (h : hexGroup t = some b) (mac : List UInt8)
    (i : Nat) : setMacByte mac i t = mac.set i b := by
  rw [setMacByte, scan2hhx_hexGroup h]

theorem strtok_colon {t : CStr} {b : UInt8} (h : hexGroup t = some b) (rest : CStr) :
    strtok [':'] (t ++ ':' :: rest) = some (t, rest) := by
  obtain ⟨hne, hcolon⟩ := hexGroup_token h
  have hskip : ∀ c ∈ ([] : CStr), c ∈ [':'] := by simp
  exact strtok_append hskip hne (by simpa using hcolon) List.mem_cons_self

theorem intercalate_colon {t : CStr} {ts : List CStr} (h : ts ≠ []) :
    [':'].intercalate (t :: ts) = t ++ ':' :: [':'].intercalate ts := by
  obtain ⟨t', ts', rfl⟩ := List.exists_cons_of_ne_nil h
  rw [List.intercalate_cons_cons]
  simp

/-- The loop stores one group after the other. -/
theorem parseMacGroups_hex : ∀ {ts : List CStr} {bytes : List UInt8} {i : Nat} {mac : List UInt8}
    (t : CStr), ts.map hexGroup = bytes.map some → i + ts.length ≤ mac.length →
    parseMacGroups ts.length i mac ([':'].intercalate (ts ++ [t])) =
      some (mac.take i ++ bytes ++ mac.drop (i + ts.length), t)
  | [], bytes, i, mac, t, h, _ => by
    obtain rfl := List.map_eq_nil_iff.mp h.symm
    simp [parseMacGroups]
  | t' :: ts, bytes, i, mac, t, h, hlen => by
    obtain ⟨b, bs, rfl, hb, hbs⟩ := List.map_eq_cons_iff.mp h.symm
    rw [List.length_cons] at hlen
    have hlen' : i + 1 + ts.length ≤ (mac.set i b).length := by
      rw [List.length_set]
      omega
    rw [List.cons_append, intercalate_colon (by simp), List.length_cons, parseMacGroups,
      strtok_colon hb.symm]
    simp only [setMacByte_hexGroup hb.symm]
    rw [parseMacGroups_hex t hbs.symm hlen']
    have htake : (mac.set i b).take (i + 1) = mac.take i ++ [b] := by
      have hi : i < mac.length := by omega
      rw [List.set_eq_take_append_cons_drop, if_pos hi, List.take_append]
      simp [Nat.min_eq_left (Nat.le_of_lt hi), List.take_take]
    have hdrop : (mac.set i b).drop (i + 1 + ts.length) = mac.drop (i + (ts.length + 1)) := by
      rw [List.drop_set_of_lt (by omega)]
      congr 1
      omega
    simp [htake, hdrop]

/-- The last element and those before it. -/
theorem exists_concat_of_length {α : Type} {l : List α} {n : Nat} (h : l.length = n + 1) :
    ∃ init last, l = init ++ [last] ∧ init.length = n := by
  rcases List.eq_nil_or_concat' l with rfl | ⟨init, last, rfl⟩
  · cases h
  · exact ⟨init, last, rfl, by simpa using h⟩

/-- **The address is stored as it is written.** -/
theorem parseNoArpArg_macText {s : CStr} {bytes mac : List UInt8} (h : MacText s bytes)
    (hbytes : bytes.length = 6) (hmac : mac.length = 6) : parseNoArpArg mac s = .ok bytes := by
  obtain ⟨ts, hts, rfl⟩ := h
  have hlen : ts.length = 6 := by simpa [hbytes] using congrArg List.length hts
  obtain ⟨init, t, rfl, hinit5⟩ := exists_concat_of_length hlen
  obtain ⟨bs, b, rfl, hbs5⟩ := exists_concat_of_length hbytes
  rw [List.map_append, List.map_append] at hts
  obtain ⟨hinit, hlast⟩ := List.append_inj' hts rfl
  have ht : hexGroup t = some b := (List.cons.inj hlast).1
  have hloop : parseMacGroups 5 0 mac ([':'].intercalate (init ++ [t])) =
      some (bs ++ mac.drop 5, t) := by
    have hgroups := @parseMacGroups_hex init bs 0 mac t hinit (by omega)
    simpa [hinit5] using hgroups
  obtain ⟨hne, -⟩ := hexGroup_token ht
  rw [parseNoArpArg, hloop]
  simp only [strtok_nil, if_neg hne, setMacByte_hexGroup ht]
  obtain ⟨m, hm⟩ := List.length_eq_one_iff.mp (show (mac.drop 5).length = 1 by simp [hmac])
  rw [hm, List.set_append_right 5 b (by omega), hbs5]
  rfl

/-! ## The copies of `do_client` -/

theorem loadMac_eq_loadMac_iff (m : Mem) (a b : Nat) :
    loadMac m a = loadMac m b ↔ ∀ j < 6, m (a + j) = m (b + j) := by
  constructor
  · intro h j hj
    have hbytes : (List.range 6).map (fun i => m (a + i)) = (List.range 6).map fun i => m (b + i) :=
      congrArg EtherAddr.addrBytes h
    exact List.map_inj_left.mp hbytes j (List.mem_range.mpr hj)
  · intro h
    exact EtherAddr.ext (List.map_inj_left.mpr fun j hj => h j (List.mem_range.mp hj))

section
variable (mac : EtherAddr) (behind : Mem)

theorem destMacMem_array {j : Nat} (hj : j < mac.addrBytes.length) :
    destMacMem mac.addrBytes behind j = mac.addrBytes[j] := by
  rw [destMacMem, List.getD_eq_getElem?_getD, List.getElem?_eq_getElem hj, Option.getD_some]

/-- The array itself. -/
theorem loadMac_destMacMem_zero : loadMac (destMacMem mac.addrBytes behind) 0 = mac := by
  refine EtherAddr.ext (List.ext_getElem ?_ fun j hj hj' => ?_)
  · simp [loadMac, mac.length_eq]
  · simp [loadMac, destMacMem_array mac behind hj']

theorem destMacMem_behind (k : Nat) : destMacMem mac.addrBytes behind (6 + k) = behind k := by
  have hlen := mac.length_eq
  rw [destMacMem, List.getD_eq_getElem?_getD, List.getElem?_eq_none (by omega), hlen,
    Nat.add_sub_cancel_left, Option.getD_none]

/-- Every copy is the address exactly when the bytes it is taken from repeat the array. -/
theorem staticServerEth_eq_replicate_iff_shift (n : Nat) :
    staticServerEth mac.addrBytes behind n = List.replicate n mac ↔
      ∀ i < n, ∀ j < 6, destMacMem mac.addrBytes behind (i + j) =
        destMacMem mac.addrBytes behind j := by
  rw [List.eq_replicate_iff]
  constructor
  · rintro ⟨-, h⟩ i hi
    have hmac := h _ (List.mem_map_of_mem (List.mem_range.mpr hi))
    have hcopy := hmac.trans (loadMac_destMacMem_zero mac behind).symm
    simpa using (loadMac_eq_loadMac_iff _ _ _).mp hcopy
  · intro h
    refine ⟨by simp [staticServerEth], fun x hx => ?_⟩
    obtain ⟨i, hi, rfl⟩ := List.mem_map.mp hx
    refine Eq.trans ((loadMac_eq_loadMac_iff _ _ _).mpr ?_) (loadMac_destMacMem_zero mac behind)
    simpa using h i (List.mem_range.mp hi)

/-- From the second copy on, each byte is the one before it. -/
theorem destMacMem_const_of_shift {n : Nat} (hn : 2 ≤ n)
    (h : ∀ i < n, ∀ j < 6, destMacMem mac.addrBytes behind (i + j) =
      destMacMem mac.addrBytes behind j) :
    ∀ k < n + 5, destMacMem mac.addrBytes behind k = destMacMem mac.addrBytes behind 0 := by
  intro k
  induction k using Nat.strongRecOn with
  | _ k ih =>
    intro hk
    by_cases h0 : k = 0
    · rw [h0]
    · by_cases h6 : k ≤ 6
      · have hstep := h 1 (by omega) (k - 1) (by omega)
        rw [show 1 + (k - 1) = k by omega] at hstep
        exact hstep.trans (ih (k - 1) (by omega) (by omega))
      · have hstep := h (k - 5) (by omega) 5 (by omega)
        rw [show k - 5 + 5 = k by omega] at hstep
        exact hstep.trans (ih 5 (by omega) (by omega))

/-- **When every destination gets the address**: there is only one, or all bytes of the address and
the bytes behind it that are copied are the same. -/
theorem staticServerEth_eq_replicate_iff (n : Nat) :
    staticServerEth mac.addrBytes behind n = List.replicate n mac ↔
      n ≤ 1 ∨ ∃ b, mac.addrBytes = List.replicate 6 b ∧ ∀ k < n - 1, behind k = b := by
  have hlen := mac.length_eq
  rw [staticServerEth_eq_replicate_iff_shift]
  constructor
  · intro h
    by_cases hn : n ≤ 1
    · exact .inl hn
    · have hconst := destMacMem_const_of_shift mac behind (by omega) h
      refine .inr ⟨destMacMem mac.addrBytes behind 0, ?_, fun k hk => ?_⟩
      · rw [List.eq_replicate_iff]
        refine ⟨hlen, fun b hb => ?_⟩
        obtain ⟨j, hj, rfl⟩ := List.getElem_of_mem hb
        rw [← hconst j (by omega), destMacMem_array mac behind hj]
      · rw [← destMacMem_behind mac behind, hconst (6 + k) (by omega)]
  · rintro (hn | ⟨b, hb, hbehind⟩) i hi j hj
    · rw [show i = 0 by omega, Nat.zero_add]
    · have hmem : ∀ k < n + 5, destMacMem mac.addrBytes behind k = b := by
        intro k hk
        by_cases h6 : k < 6
        · have hk' : k < mac.addrBytes.length := by omega
          have hbyte : mac.addrBytes[k] ∈ List.replicate 6 b := hb ▸ List.getElem_mem hk'
          rw [destMacMem_array mac behind hk', List.eq_of_mem_replicate hbyte]
        · rw [show k = 6 + (k - 6) by omega, destMacMem_behind, hbehind (k - 6) (by omega)]
      rw [hmem (i + j) (by omega), hmem j (by omega)]

end

/--
**`--no-arp` sets the address of every destination exactly when there is one destination**, or the
address has six equal bytes and the memory behind it goes on with them. The text is stored as it is
written in any case.
-/
theorem noArp_serverEth_iff (s : CStr) (mac : EtherAddr) (hs : MacText s mac.addrBytes)
    (old : List UInt8) (hold : old.length = 6) (behind : Mem) (n : Nat) :
    (∃ stored, parseNoArpArg old s = .ok stored ∧ stored = mac.addrBytes ∧
        staticServerEth stored behind n = List.replicate n mac) ↔
      n ≤ 1 ∨ ∃ b, mac.addrBytes = List.replicate 6 b ∧ ∀ k < n - 1, behind k = b := by
  have hparse := parseNoArpArg_macText hs mac.length_eq hold
  rw [← staticServerEth_eq_replicate_iff]
  constructor
  · rintro ⟨stored, -, rfl, heth⟩
    exact heth
  · intro heth
    exact ⟨mac.addrBytes, hparse, rfl, heth⟩

/-- `e8:eb:d3:a7:c:b6` -/
def noArpMac : EtherAddr := ⟨[0xe8, 0xeb, 0xd3, 0xa7, 0x0c, 0xb6], rfl⟩

theorem noArpMac_text : MacText "e8:eb:d3:a7:c:b6".toList noArpMac.addrBytes :=
  ⟨["e8".toList, "eb".toList, "d3".toList, "a7".toList, "c".toList, "b6".toList], by decide,
    by decide⟩

/-- One destination. -/
theorem noArp_serverEth_one : ∃ stored,
    parseNoArpArg (List.replicate 6 0) "e8:eb:d3:a7:c:b6".toList = .ok stored ∧
      stored = noArpMac.addrBytes ∧
      staticServerEth stored (fun _ => 0) 1 = List.replicate 1 noArpMac :=
  (noArp_serverEth_iff _ noArpMac noArpMac_text _ rfl _ 1).mpr (.inl (by decide))

/-- The second destination gets `eb:d3:a7:c:b6:0`. -/
theorem noArp_second_destination :
    parseNoArpArg (List.replicate 6 0) "e8:eb:d3:a7:c:b6".toList = .ok noArpMac.addrBytes ∧
      staticServerEth noArpMac.addrBytes (fun _ => 0) 2 =
        [noArpMac, ⟨[0xeb, 0xd3, 0xa7, 0x0c, 0xb6, 0x00], rfl⟩] ∧
      ¬∀ eth ∈ staticServerEth noArpMac.addrBytes (fun _ => 0) 2, eth = noArpMac := by
  refine ⟨rfl, rfl, fun h => ?_⟩
  exact absurd (h ⟨[0xeb, 0xd3, 0xa7, 0x0c, 0xb6, 0x00], rfl⟩ (by decide)) (by decide)

end DpdkEcho
