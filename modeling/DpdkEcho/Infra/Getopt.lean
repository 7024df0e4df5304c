import DpdkEcho.Infra.CString
import Mathlib.Data.List.Infix
import Mathlib.Data.List.TakeWhile

/-!
# `getopt_long`

The words of a command line and the options they give, for a program without short options that
ends at the first word it cannot read. Behaviour of glibc, with `POSIXLY_CORRECT` not set:

* an option is named in full or by a part from its start that no other option has; an argument
  stands behind `=` or is the next word, whatever that looks like
* words that do not start with a dash, and a lone dash, are passed over
* `--` ends the options

`Spelled` is the grammar, and `getoptLong_iff` says that the words are read as the options exactly
when the grammar derives them.
-/

namespace Infra

/-- A row of the table of options: the name, whether there is an argument, and what is returned. -/
structure LongOpt (α : Type*) where
  name : CStr
  hasArg : Bool
  val : α
deriving DecidableEq

/-- What a word can be. -/
inductive Word where
  /-- `--` -/
  | stop
  /-- `--name` or `--name=value` -/
  | long (name : CStr) (value : Option CStr)
  /-- Any other word behind a dash. -/
  | short
  | other
deriving DecidableEq

/-- The text behind the first `=`. -/
def readValue : CStr → Option CStr
  | [] => none
  | _ :: value => some value

def readWord : CStr → Word
  | ['-', '-'] => .stop
  | '-' :: '-' :: body =>
    .long (body.takeWhile (· ≠ '=')) (readValue (body.dropWhile (· ≠ '=')))
  | ['-'] => .other
  | '-' :: _ => .short
  | _ => .other

section
variable {α : Type*} [DecidableEq α]

/-- The option of a name: the one with exactly this name, or else the one whose name starts with
it. Several of those must not differ in what they mean. -/
def findLongOpt (opts : List (LongOpt α)) (name : CStr) : Option (LongOpt α) :=
  match opts.find? fun o => o.name = name with
  | some o => some o
  | none =>
    match opts.filter fun o => name.isPrefixOf o.name with
    | [] => none
    | o :: others =>
      if others.all fun p => p.hasArg = o.hasArg ∧ p.val = o.val then some o else none

/-- The calls of `getopt_long` until it returns -1 or refuses a word (`none`). An option without an
argument is given the empty one. -/
def getoptLong (opts : List (LongOpt α)) : List CStr → List (Option (α × CStr))
  | [] => []
  | word :: rest =>
    match readWord word with
    | .stop => []
    | .other => getoptLong opts rest
    | .short => [none]
    | .long name value =>
      match findLongOpt opts name with
      | none => [none]
      | some o =>
        match o.hasArg, value with
        | false, none => some (o.val, []) :: getoptLong opts rest
        | false, some _ => [none]
        | true, some arg => some (o.val, arg) :: getoptLong opts rest
        | true, none =>
          match rest with
          | [] => [none]
          | arg :: rest => some (o.val, arg) :: getoptLong opts rest

/-! ## The grammar -/

/-- `name` stands for `o`: it is its name, or the start of its name and of no other. -/
def Names (opts : List (LongOpt α)) (name : CStr) (o : LongOpt α) : Prop :=
  o ∈ opts ∧ (o.name = name ∨ name <+: o.name ∧ ∀ p ∈ opts, name <+: p.name → p = o)

/-- The words from which the options are read. -/
inductive Spelled (opts : List (LongOpt α)) : List (α × CStr) → List CStr → Prop where
  | done : Spelled opts [] []
  | stop (words : List CStr) : Spelled opts [] (['-', '-'] :: words)
  | skip {given : List (α × CStr)} {words : List CStr} {word : CStr} :
      word = ['-'] ∨ word.head? ≠ some '-' → Spelled opts given words →
      Spelled opts given (word :: words)
  | flag {given : List (α × CStr)} {words : List CStr} {name : CStr} {o : LongOpt α} :
      Names opts name o → o.hasArg = false → name ≠ [] → Spelled opts given words →
      Spelled opts ((o.val, []) :: given) (('-' :: '-' :: name) :: words)
  | joined {given : List (α × CStr)} {words : List CStr} {name arg : CStr} {o : LongOpt α} :
      Names opts name o → o.hasArg = true → Spelled opts given words →
      Spelled opts ((o.val, arg) :: given) (('-' :: '-' :: (name ++ '=' :: arg)) :: words)
  | apart {given : List (α × CStr)} {words : List CStr} {name arg : CStr} {o : LongOpt α} :
      Names opts name o → o.hasArg = true → name ≠ [] → Spelled opts given words →
      Spelled opts ((o.val, arg) :: given) (('-' :: '-' :: name) :: arg :: words)

/-- A table without `=` in a name, whose rows have different names and mean different things. -/
structure TableOk (opts : List (LongOpt α)) : Prop where
  plain : ∀ o ∈ opts, '=' ∉ o.name
  names : ∀ o ∈ opts, ∀ p ∈ opts, o.name = p.name → o = p
  vals : ∀ o ∈ opts, ∀ p ∈ opts, o.val = p.val → o = p

end

/-! ## Words -/

theorem readWord_stop {word : CStr} : readWord word = .stop ↔ word = ['-', '-'] := by
  constructor
  · intro h
    unfold readWord at h
    split at h <;> first | rfl | cases h
  · rintro rfl
    rfl

theorem readWord_other {word : CStr} :
    readWord word = .other ↔ word = ['-'] ∨ word.head? ≠ some '-' := by
  constructor
  · intro h
    unfold readWord at h
    split at h
    · cases h
    · cases h
    · exact Or.inl rfl
    · cases h
    · next hdash =>
      right
      intro hhead
      cases word with
      | nil => cases hhead
      | cons c rest =>
        obtain rfl : c = '-' := Option.some.inj hhead
        exact hdash rest rfl
  · rintro (rfl | hhead)
    · rfl
    · unfold readWord
      split
      · exact absurd rfl hhead
      · exact absurd rfl hhead
      · rfl
      · exact absurd rfl hhead
      · rfl

section
variable {name : CStr} (hplain : '=' ∉ name)
include hplain

theorem ne_equals {c : Char} (hc : c ∈ name) : decide (c ≠ '=') = true := by
  refine decide_eq_true ?_
  rintro rfl
  exact hplain hc

theorem readWord_name (hne : name ≠ []) : readWord ('-' :: '-' :: name) = .long name none := by
  have hlong : readWord ('-' :: '-' :: name)
      = .long (name.takeWhile (· ≠ '=')) (readValue (name.dropWhile (· ≠ '='))) := by
    cases name with
    | nil => exact absurd rfl hne
    | cons c rest => rfl
  rw [hlong, List.takeWhile_eq_self_iff.mpr fun c hc => ne_equals hplain hc,
    List.dropWhile_eq_nil_iff.mpr fun c hc => ne_equals hplain hc]
  rfl

theorem readWord_joined (arg : CStr) :
    readWord ('-' :: '-' :: (name ++ '=' :: arg)) = .long name (some arg) := by
  have hlong : readWord ('-' :: '-' :: (name ++ '=' :: arg))
      = .long ((name ++ '=' :: arg).takeWhile (· ≠ '='))
        (readValue ((name ++ '=' :: arg).dropWhile (· ≠ '='))) := by
    cases name with
    | nil => rfl
    | cons c rest => rfl
  rw [hlong, List.takeWhile_append_of_pos fun c hc => ne_equals hplain hc,
    List.dropWhile_append_of_pos fun c hc => ne_equals hplain hc]
  simp [readValue]

end

/-- What a long option looks like. -/
theorem readWord_long {word name : CStr} {value : Option CStr}
    (h : readWord word = .long name value) :
    (value = none ∧ name ≠ [] ∧ word = '-' :: '-' :: name) ∨
      ∃ arg, value = some arg ∧ word = '-' :: '-' :: (name ++ '=' :: arg) := by
  unfold readWord at h
  split at h
  · cases h
  · next body hbody =>
    obtain ⟨rfl, rfl⟩ := Word.long.inj h
    have hsplit : body.takeWhile (· ≠ '=') ++ body.dropWhile (· ≠ '=') = body :=
      List.takeWhile_append_dropWhile
    cases hrest : body.dropWhile (· ≠ '=') with
    | nil =>
      rw [hrest, List.append_nil] at hsplit
      refine Or.inl ⟨rfl, ?_, by rw [hsplit]⟩
      rw [hsplit]
      rintro rfl
      exact hbody rfl
    | cons c arg =>
      have hc : decide (c ≠ '=') = false := by
        have hhead := List.head?_dropWhile_not (fun c => decide (c ≠ '=')) body
        rwa [hrest] at hhead
      obtain rfl : c = '=' := not_not.mp (of_decide_eq_false hc)
      rw [hrest] at hsplit
      exact Or.inr ⟨arg, rfl, by rw [hsplit]⟩
  · cases h
  · cases h
  · cases h

/-! ## Names -/

section
variable {α : Type*} [DecidableEq α] {opts : List (LongOpt α)}

theorem findLongOpt_iff (hopts : TableOk opts) {name : CStr} {o : LongOpt α} :
    findLongOpt opts name = some o ↔ Names opts name o := by
  have hmem : ∀ {p : LongOpt α}, p ∈ opts.filter (fun o => name.isPrefixOf o.name) ↔
      p ∈ opts ∧ name <+: p.name := by
    intro p
    rw [List.mem_filter, List.isPrefixOf_iff_prefix]
  unfold findLongOpt
  cases hfind : opts.find? fun o => o.name = name with
  | some p =>
    have hp : p ∈ opts := List.mem_of_find?_eq_some hfind
    have hname : p.name = name := by simpa using List.find?_some hfind
    constructor
    · intro h
      obtain rfl := Option.some.inj h
      exact ⟨hp, Or.inl hname⟩
    · rintro ⟨ho, hfull | ⟨-, honly⟩⟩
      · exact congrArg some (hopts.names p hp o ho (hname.trans hfull.symm))
      · exact congrArg some (honly p hp (by rw [hname]))
  | none =>
    have hnone : ∀ p ∈ opts, p.name ≠ name := by
      simpa using List.find?_eq_none.mp hfind
    simp only []
    cases hcand : opts.filter fun o => name.isPrefixOf o.name with
    | nil =>
      constructor
      · intro h
        cases h
      · rintro ⟨ho, hfull | ⟨hpre, -⟩⟩
        · exact absurd hfull (hnone o ho)
        · have hin := hmem.mpr ⟨ho, hpre⟩
          rw [hcand] at hin
          exact absurd hin List.not_mem_nil
    | cons q others =>
      have hq : q ∈ opts ∧ name <+: q.name := hmem.mp (hcand ▸ List.mem_cons_self)
      simp only []
      constructor
      · intro h
        split at h
        · next hall =>
          obtain rfl := Option.some.inj h
          refine ⟨hq.1, Or.inr ⟨hq.2, fun p hp hpre => ?_⟩⟩
          have hin := hmem.mpr ⟨hp, hpre⟩
          rw [hcand] at hin
          rcases List.mem_cons.mp hin with rfl | hin
          · rfl
          · have hsame := of_decide_eq_true (List.all_eq_true.mp hall p hin)
            exact hopts.vals p hp q hq.1 hsame.2
        · cases h
      · rintro ⟨ho, hfull | ⟨hpre, honly⟩⟩
        · exact absurd hfull (hnone o ho)
        · obtain rfl : q = o := honly q hq.1 hq.2
          refine if_pos (List.all_eq_true.mpr fun p hp => decide_eq_true ?_)
          have hin : p ∈ opts ∧ name <+: p.name := hmem.mp (hcand ▸ List.mem_cons_of_mem _ hp)
          rw [honly p hin.1 hin.2]
          exact ⟨rfl, rfl⟩

omit [DecidableEq α] in
/-- A part of a name has no `=` in it either. -/
theorem Names.plain (hopts : TableOk opts) {name : CStr} {o : LongOpt α} (h : Names opts name o) :
    '=' ∉ name := by
  obtain ⟨ho, rfl | ⟨hpre, -⟩⟩ := h
  · exact hopts.plain o ho
  · exact fun hmem => hopts.plain o ho (hpre.subset hmem)

/-! ## The options -/

omit [DecidableEq α] in
theorem none_ne_map_some {given : List (α × CStr)} : [none] ≠ given.map some := by
  cases given <;> simp

omit [DecidableEq α] in
theorem cons_eq_map_some {x : α × CStr} {read : List (Option (α × CStr))}
    {given : List (α × CStr)} (h : some x :: read = given.map some) :
    ∃ given', given = x :: given' ∧ read = given'.map some := by
  cases given with
  | nil => cases h
  | cons y given' =>
    obtain ⟨hx, hrest⟩ := List.cons.inj h
    exact ⟨given', by rw [Option.some.inj hx], hrest⟩

/-- What the grammar derives is read. -/
theorem Spelled.getoptLong (hopts : TableOk opts) {given : List (α × CStr)} {words : List CStr}
    (h : Spelled opts given words) : getoptLong opts words = given.map some := by
  induction h with
  | done => rfl
  | stop words => rfl
  | skip hword _ ih =>
    rw [Infra.getoptLong, readWord_other.mpr hword]
    exact ih
  | flag hname harg hne _ ih =>
    rw [Infra.getoptLong, readWord_name (hname.plain hopts) hne]
    simp only [(findLongOpt_iff hopts).mpr hname, harg, ih]
    rfl
  | joined hname harg _ ih =>
    rw [Infra.getoptLong, readWord_joined (hname.plain hopts)]
    simp only [(findLongOpt_iff hopts).mpr hname, harg, ih]
    rfl
  | apart hname harg hne _ ih =>
    rw [Infra.getoptLong, readWord_name (hname.plain hopts) hne]
    simp only [(findLongOpt_iff hopts).mpr hname, harg, ih]
    rfl

/-- What is read without a refusal is derived by the grammar. -/
theorem spelled_of_getoptLong (hopts : TableOk opts) : ∀ (words : List CStr)
    {given : List (α × CStr)}, getoptLong opts words = given.map some → Spelled opts given words
  | [], given, h => by
    obtain rfl : given = [] := List.map_eq_nil_iff.mp h.symm
    exact .done
  | word :: rest, given, h => by
    rw [getoptLong] at h
    cases hread : readWord word with
    | stop =>
      rw [hread] at h
      obtain rfl : given = [] := List.map_eq_nil_iff.mp h.symm
      rw [readWord_stop.mp hread]
      exact .stop rest
    | other =>
      rw [hread] at h
      exact .skip (readWord_other.mp hread) (spelled_of_getoptLong hopts rest h)
    | short =>
      rw [hread] at h
      exact absurd h none_ne_map_some
    | long name value =>
      rw [hread] at h
      simp only [] at h
      cases hfind : findLongOpt opts name with
      | none =>
        rw [hfind] at h
        exact absurd h none_ne_map_some
      | some o =>
        have hname := (findLongOpt_iff hopts).mp hfind
        rw [hfind] at h
        simp only [] at h
        cases harg : o.hasArg with
        | false =>
          rcases readWord_long hread with ⟨rfl, hne, rfl⟩ | ⟨arg, rfl, rfl⟩
          · rw [harg] at h
            obtain ⟨given', rfl, hrest⟩ := cons_eq_map_some h
            exact .flag hname harg hne (spelled_of_getoptLong hopts rest hrest)
          · rw [harg] at h
            exact absurd h none_ne_map_some
        | true =>
          rcases readWord_long hread with ⟨rfl, hne, rfl⟩ | ⟨arg, rfl, rfl⟩
          · rw [harg] at h
            -- the argument is the next word
            cases rest with
            | nil => exact absurd h none_ne_map_some
            | cons arg rest =>
              obtain ⟨given', rfl, hrest⟩ := cons_eq_map_some h
              exact .apart hname harg hne (spelled_of_getoptLong hopts rest hrest)
          · rw [harg] at h
            obtain ⟨given', rfl, hrest⟩ := cons_eq_map_some h
            exact .joined hname harg (spelled_of_getoptLong hopts rest hrest)
termination_by words => words.length

/-- **The grammar of `getopt_long`.** The words are read as the options, and none is refused,
exactly when the grammar derives them. -/
theorem getoptLong_iff (hopts : TableOk opts) {given : List (α × CStr)} {words : List CStr} :
    getoptLong opts words = given.map some ↔ Spelled opts given words :=
  ⟨spelled_of_getoptLong hopts words, fun h => h.getoptLong hopts⟩

end

end Infra
