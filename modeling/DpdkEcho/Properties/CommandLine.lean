import Mathlib.Data.List.Nodup
import DpdkEcho.CommandLine
import DpdkEcho.Properties.OptionAcceptance

/-!
# The command lines as text

What `parse_args` makes of the words of a command line, by the grammar of `getopt_long` and the
conditions on the options. The grammar is that of `Infra.Getopt`; here it is applied to the table
of the program.

* `longOpts_ok`: the table has no two rows of one name or one meaning
* `parseArgv_accepts_iff`: the command lines that are accepted, and what becomes of them
-/

namespace DpdkEcho

open Infra

theorem longOpts_ok : TableOk longOpts where
  plain := by decide
  names := fun _ ho _ hp => List.inj_on_of_nodup_map (by decide) ho hp
  vals := fun _ ho _ hp => List.inj_on_of_nodup_map (by decide) ho hp

/-- An option that is not recognised is not acceptable. -/
theorem Acceptable.unknown {atof : CStr → ℚ} {args : List (Opt × CStr)} (h : Acceptable atof args)
    (arg : CStr) : (.unknown, arg) ∉ args := by
  obtain ⟨pre, o, arg', post, m, rfl, hsel, hpre, hpost, -⟩ := h
  intro hmem
  rcases List.mem_append.mp hmem with hmem | hmem
  · exact (hpre _ hmem).2.1
  · rcases List.mem_cons.mp hmem with heq | hmem
    · obtain rfl : Opt.unknown = o := congrArg Prod.fst heq
      cases hsel
    · exact (hpost _ hmem).1

/-- Without a refusal, the options are those of the grammar. -/
theorem optsOfArgv_iff {argv : List CStr} {given : List (Opt × CStr)}
    (hknown : ∀ arg, (.unknown, arg) ∉ given) :
    optsOfArgv argv = given ↔ Spelled longOpts given argv := by
  rw [← getoptLong_iff longOpts_ok]
  constructor
  · rintro rfl
    rw [optsOfArgv, List.map_map]
    refine (List.map_id _).symm.trans (List.map_congr_left fun r hr => ?_)
    cases r with
    | some a => rfl
    | none => exact absurd (List.mem_map_of_mem hr) (hknown [])
  · intro h
    rw [optsOfArgv, h, List.map_map]
    exact List.map_id _

/--
**The command lines of the program.** The words of a command line are accepted exactly when they
are written by the grammar of `getopt_long` from options that are acceptable, and the configuration
is then the one of these options.
-/
theorem parseArgv_accepts_iff (atof : CStr → ℚ) (argv : List CStr) :
    ((∃ config, parseArgv atof argv = .ok config) ↔
      ∃ given, Spelled longOpts given argv ∧ Acceptable atof given) ∧
    ∀ config, parseArgv atof argv = .ok config ↔
      ∃ given, Spelled longOpts given argv ∧ parseArgs atof given = .ok config := by
  have hconfig : ∀ config, parseArgv atof argv = .ok config ↔
      ∃ given, Spelled longOpts given argv ∧ parseArgs atof given = .ok config := by
    intro config
    constructor
    · intro h
      have hacc := (parseArgs_accepts_iff atof _).mp ⟨config, h⟩
      exact ⟨_, (optsOfArgv_iff hacc.unknown).mp rfl, h⟩
    · rintro ⟨given, hspelled, h⟩
      have hacc := (parseArgs_accepts_iff atof given).mp ⟨config, h⟩
      rw [parseArgv, (optsOfArgv_iff hacc.unknown).mpr hspelled]
      exact h
  refine ⟨⟨?_, ?_⟩, hconfig⟩
  · rintro ⟨config, h⟩
    obtain ⟨given, hspelled, hgiven⟩ := (hconfig config).mp h
    exact ⟨given, hspelled, (parseArgs_accepts_iff atof given).mp ⟨config, hgiven⟩⟩
  · rintro ⟨given, hspelled, hacc⟩
    obtain ⟨config, hgiven⟩ := (parseArgs_accepts_iff atof given).mpr hacc
    exact ⟨config, (hconfig config).mpr ⟨given, hspelled, hgiven⟩⟩

-- a part of a name that two options start with is refused, a full name is not
example : optsOfArgv ["--c".toList, "--num=2".toList] = [(.client, []), (.unknown, [])] := by
  decide

example : optsOfArgv ["--port".toList, "80".toList, "--port-d=81".toList]
    = [(.port, "80".toList), (.destPort, "81".toList)] := by
  decide

end DpdkEcho
