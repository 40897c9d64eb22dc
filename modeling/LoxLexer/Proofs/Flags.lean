-- SUMMARY: The flags of a command line: every combination of a format, detailed reports and a log can be asked for, with a file or without.
import Mathlib.Data.List.TakeWhile
import LoxLexer.CommandLine.Arguments

/-!
# Flags

A flag takes effect when it is met, and changes nothing that was asked for before. So flags that
stand one behind the other ask for all they say, and options are reached in every combination. Only
that a log is asked for more often than a byte can count makes no further difference.
-/

namespace LoxLexer.CommandLine

/-- The flags of a command line that ask for a format, for detailed reports or none, and so many
times for a log. -/
def flags (format : Format) (fancy : Bool) (times : Nat) : List String :=
  ("--format=" ++ format.name) :: (if fancy then ["--fancy"] else []) ++ List.replicate times "-v"

/-! ## Counting -/

theorem toNat_countUp (n : UInt8) : (countUp n).toNat = min (n.toNat + 1) 255 := by
  have bound := n.toNat_lt
  rw [countUp]
  split
  next full =>
    rw [full]
    rfl
  next notFull =>
    have small : n.toNat ≠ 255 := fun same => notFull (UInt8.toNat_inj.mp same)
    rw [UInt8.toNat_add]
    change (n.toNat + 1) % 256 = _
    omega

/-- Counting up is adding, as far as the count goes. -/
theorem countUp_ofNat (n : Nat) : countUp (.ofNat (min n 255)) = .ofNat (min (n + 1) 255) := by
  apply UInt8.toNat_inj.mp
  rw [toNat_countUp, UInt8.toNat_ofNat', UInt8.toNat_ofNat']
  omega

/-! ## Reading flags -/

section Reading

variable {r : Reading} (settled : r.pending = .nothing)

theorem Reading.argument_format (format : Format) :
    Reading.argument {} ("--format=" ++ format.name) = .ok { format := some format } := by
  cases format <;> rfl

include settled

theorem Reading.settle_of_settled : r.settle = .ok r := by rw [settle, settled]

theorem Reading.argument_fancy (once : r.fancy = false) :
    r.argument "--fancy" = .ok { r with fancy := true } := by
  have asked : r.argument "--fancy" = r.setting .fancy none := rfl
  rw [asked, setting, settle_of_settled settled]
  exact if_neg (by simp [once])

theorem Reading.foldlM_argument_verbose {before : Nat}
    (counted : r.verbosity = .ofNat (min before 255)) (n : Nat) :
    (List.replicate n "-v").foldlM argument r =
      .ok { r with verbosity := .ofNat (min (before + n) 255) } := by
  induction n generalizing r before with
  | zero =>
      rw [Nat.add_zero, ← counted]
      rfl
  | succ n ih =>
      have asked : r.argument "-v" = r.setting .verbose none >>= .ok := rfl
      have once : r.argument "-v" = .ok { r with verbosity := .ofNat (min (before + 1) 255) } := by
        rw [asked, setting, settle_of_settled settled, ← countUp_ofNat, ← counted]
        rfl
      rw [List.replicate_succ, List.foldlM_cons, once]
      refine (@ih { r with verbosity := .ofNat (min (before + 1) 255) } settled _ rfl).trans ?_
      rw [Nat.add_assoc, Nat.add_comm 1]

end Reading

section Flags

variable (format : Format) (fancy : Bool) (times : Nat)

theorem foldlM_argument_flags : (flags format fancy times).foldlM Reading.argument {} =
    .ok { format := some format, fancy, verbosity := .ofNat (min times 255) } := by
  have verbose (b : Bool) : (List.replicate times "-v").foldlM Reading.argument
      { format := some format, fancy := b } =
        .ok { format := some format, fancy := b, verbosity := .ofNat (min times 255) } := by
    refine (@Reading.foldlM_argument_verbose _ rfl 0 rfl times).trans ?_
    rw [Nat.zero_add]
  rw [flags, List.cons_append, List.foldlM_cons, Reading.argument_format]
  cases fancy with
  | false => exact verbose false
  | true =>
      have once := Reading.argument_fancy (r := { format := some format }) rfl rfl
      rw [if_pos rfl, List.singleton_append]
      change List.foldlM Reading.argument { format := some format } ("--fancy" :: _) = _
      rw [List.foldlM_cons, once]
      exact verbose true

/-- No flag ends the flags. -/
theorem ne_of_mem_flags : ∀ f ∈ flags format fancy times, decide (f ≠ "--") = true := by
  have first : "--format=" ++ format.name ≠ "--" := by cases format <;> decide
  have absent : "--" ∉ flags format fancy times := by
    cases fancy <;> simp [flags, first.symm, List.mem_replicate]
  intro f member
  rw [decide_eq_true_eq]
  rintro rfl
  exact absent member

/-- Every combination of flags can be asked for, without a file or with one. -/
theorem options_flags : options (flags format fancy times) =
    .ok { format, fancy, verbosity := .ofNat (min times 255) } := by
  have inside := ne_of_mem_flags format fancy times
  have before : (flags format fancy times).takeWhile (· ≠ "--") = flags format fancy times :=
    List.takeWhile_eq_self_iff.mpr inside
  have behind : (flags format fancy times).dropWhile (· ≠ "--") = [] :=
    List.dropWhile_eq_nil_iff.mpr inside
  rw [options, before, behind, foldlM_argument_flags]
  rfl

theorem options_flags_file {path : String} (nonempty : path ≠ "") :
    options (flags format fancy times ++ ["--", path]) =
      .ok { file := some path, format, fancy, verbosity := .ofNat (min times 255) } := by
  have inside := ne_of_mem_flags format fancy times
  have before : (flags format fancy times ++ ["--", path]).takeWhile (· ≠ "--") =
      flags format fancy times := by
    rw [List.takeWhile_append_of_pos inside]
    simp
  have behind : ((flags format fancy times ++ ["--", path]).dropWhile (· ≠ "--")).drop 1 =
      [path] := by
    rw [List.dropWhile_append_of_pos inside]
    simp
  let r : Reading := { format := some format, fancy, verbosity := .ofNat (min times 255) }
  have named : Reading.settle { r with pending := .file path } = .ok { r with file := some path } :=
    if_neg nonempty
  rw [options, before, behind, foldlM_argument_flags]
  change Reading.settle { r with pending := .file path } >>= _ = _
  rw [named]
  rfl

end Flags

end LoxLexer.CommandLine
