import Dumbos.Firewall.Scripts
import Dumbos.Firewall.Tools
import Dumbos.Foundation.Decimal

/-! # The UID of a package

`pm list packages -U` prints a line for each package. The scripts search it for the
name between `package:` and a blank, and take what stands behind the last ` uid:`
of the line. A name that is part of another one does not find its line.
-/
namespace Dumbos.Firewall
open Foundation

/-- Word splitting. -/
def isIfs (c : UInt8) : Bool := c == 32 || c == 9 || c == 10

/-- The words of an unquoted `$PACKAGES`. -/
def words (text : Bytes) : List Bytes := (text.splitOnP isIfs).filter (· ≠ [])

/-- `grep -F -m 1 pattern`, of a pattern of one line. -/
def grepFm1 (pattern content : Bytes) : Option Bytes :=
  (linesOf content).find? fun line => decide (pattern <:+: line)

/-- What stands behind the last `sep` of a text. -/
def afterLast (sep : Bytes) : Bytes → Option Bytes
  | [] => none
  | c :: text =>
    match afterLast sep text with
    | some rest => some rest
    | none => if sep <+: c :: text then some ((c :: text).drop sep.length) else none

/-- `"package:$package "`. -/
def packagePattern (package : Bytes) : Bytes := ascii "package:" ++ package ++ ascii " "

/-- `${line##* uid:}`. -/
def appuid (line : Bytes) : Bytes := (afterLast (ascii " uid:") line).getD line

/-- The user that `--uid-owner` takes a text for; names of users are not among the texts here. -/
def uidOwner (text : Bytes) : Option ℕ :=
  if text ≠ [] && text.all isDigit then some (digitsValue text) else none

/-- The UID of a package by the output of `pm list packages`. -/
def uidIn (list package : Bytes) : Option ℕ :=
  (grepFm1 (packagePattern package) list).bind fun line => uidOwner (appuid line)

section Print

/-- An installed package and its UID. -/
structure Installed where
  name : Bytes
  uid : ℕ
  valid : checkPackageName name

def Installed.line (package : Installed) : Bytes :=
  packagePattern package.name ++ ascii "uid:" ++ natText package.uid

/-- `pm list packages --user 0 -U`. -/
def printPackages (packages : List Installed) : Bytes :=
  ended newline (packages.map Installed.line)

/-- The UID of a package by the packages that are installed. -/
def installedUid (packages : List Installed) (name : Bytes) : Option ℕ :=
  (packages.find? (·.name = name)).map Installed.uid

end Print

section Words

theorem not_isIfs_of_isPackageChar {c : UInt8} (h : isPackageChar c = true) : isIfs c = false := by
  by_contra hifs
  simp only [Bool.not_eq_false, isIfs, Bool.or_eq_true, beq_iff_eq] at hifs
  rcases hifs with (rfl | rfl) | rfl <;> exact absurd h (by decide)

theorem isPackageChar_of_mem {name : Bytes} (h : checkPackageName name) {c : UInt8} (hc : c ∈ name) :
    isPackageChar c = true := by
  rw [checkPackageName, Bool.and_eq_true, List.all_eq_true] at h
  exact h.2 c hc

theorem ne_nil_of_valid {name : Bytes} (h : checkPackageName name) : name ≠ [] := by
  rw [checkPackageName, Bool.and_eq_true, decide_eq_true_eq] at h
  exact h.1

/-- A list of names, one a line, is a list of words. -/
theorem words_ended_append {names : List Bytes} (h : ∀ n ∈ names, checkPackageName n) (rest : Bytes) :
    words (ended newline names ++ rest) = names ++ words rest := by
  induction names with
  | nil => rfl
  | cons name names ih =>
    have hname := h name (by simp)
    have hsplit : (name ++ newline :: (ended newline names ++ rest)).splitOnP isIfs =
        name :: (ended newline names ++ rest).splitOnP isIfs :=
      List.splitOnP_append_cons_of_forall_mem
        (fun c hc => not_isIfs_of_isPackageChar (isPackageChar_of_mem hname hc)) newline rfl _
    rw [ended_cons, List.append_assoc, List.cons_append, words, hsplit,
      List.filter_cons_of_pos (by simpa using ne_nil_of_valid hname), ← words,
      ih fun n hn => h n (List.mem_cons_of_mem _ hn), List.cons_append]

@[simp] theorem words_nil : words [] = [] := by simp [words]

end Words

section AfterLast

theorem afterLast_of_not_mem {c : UInt8} {sep text : Bytes} (h : c ∉ text) :
    afterLast (c :: sep) text = none := by
  induction text with
  | nil => rfl
  | cons d text ih =>
    rw [List.mem_cons, not_or] at h
    rw [afterLast, ih h.2]
    simp [h.1]

/-- Behind the last separator its first character does not come again. -/
theorem afterLast_append {c : UInt8} {sep : Bytes} (hsep : c ∉ sep) (front : Bytes) {rest : Bytes}
    (hrest : c ∉ rest) : afterLast (c :: sep) (front ++ (c :: sep ++ rest)) = some rest := by
  induction front with
  | nil =>
    have hnone : afterLast (c :: sep) (sep ++ rest) = none :=
      afterLast_of_not_mem (by rw [List.mem_append]; exact not_or.mpr ⟨hsep, hrest⟩)
    rw [List.nil_append, List.cons_append, afterLast, hnone]
    simp
  | cons d front ih => rw [List.cons_append, afterLast, ih]

end AfterLast

section Lookup
variable {name : Bytes}

theorem blank_not_mem_of_valid (h : checkPackageName name) : (32 : UInt8) ∉ name :=
  fun hmem => absurd (isPackageChar_of_mem h hmem) (by decide)

theorem colon_not_mem_of_valid (h : checkPackageName name) : (58 : UInt8) ∉ name :=
  fun hmem => absurd (isPackageChar_of_mem h hmem) (by decide)

theorem not_mem_natText {c : UInt8} (hc : isDigit c = false) (n : ℕ) : c ∉ natText n := by
  intro hmem
  rw [natText_digits n c hmem] at hc
  cases hc

theorem packagePattern_eq (name : Bytes) :
    packagePattern name = ascii "package" ++ 58 :: (name ++ [32]) := by
  have hpackage : ascii "package:" = ascii "package" ++ [58] := by decide
  have hblank : ascii " " = [32] := by decide
  rw [packagePattern, hpackage, hblank, List.append_assoc, List.append_assoc, List.singleton_append]

/-- The colons of a line stand behind `package` and behind ` uid`. -/
theorem Installed.line_eq (package : Installed) :
    package.line =
      ascii "package" ++ 58 :: (package.name ++ 32 :: (ascii "uid" ++ 58 :: natText package.uid)) := by
  have huid : ascii "uid:" = ascii "uid" ++ [58] := by decide
  rw [Installed.line, packagePattern_eq, huid]
  simp

theorem front_eq_of_infix {front rest : Bytes} {package : Installed}
    (h : front ++ packagePattern name ++ rest = package.line) : (58 : UInt8) ∉ front := by
  intro hcolon
  have hpackage : (58 : UInt8) ∉ ascii "package" := by decide
  have huid : (58 : UInt8) ∉ package.name ++ 32 :: ascii "uid" := by
    rw [List.mem_append, not_or]
    exact ⟨colon_not_mem_of_valid package.valid, by decide⟩
  rw [packagePattern_eq, package.line_eq] at h
  obtain ⟨front₁, front₂, rfl, hfirst⟩ := List.eq_append_cons_of_mem hcolon
  simp only [List.append_assoc, List.cons_append] at h
  obtain ⟨-, h⟩ := eq_of_first hfirst hpackage h
  -- behind the first colon of the line
  have hline : package.name ++ 32 :: (ascii "uid" ++ 58 :: natText package.uid) =
      package.name ++ 32 :: ascii "uid" ++ 58 :: natText package.uid := by simp
  have hfront : front₂ ++ (ascii "package" ++ 58 :: (name ++ 32 :: ([] ++ rest))) =
      front₂ ++ ascii "package" ++ 58 :: (name ++ 32 :: ([] ++ rest)) := by simp
  rw [hline] at h
  by_cases hsecond : (58 : UInt8) ∈ front₂
  · obtain ⟨front₃, front₄, rfl, hthird⟩ := List.eq_append_cons_of_mem hsecond
    simp only [List.append_assoc, List.cons_append] at h
    rw [hline] at h
    obtain ⟨-, h⟩ := eq_of_first hthird huid h
    have hmem : (58 : UInt8) ∈ natText package.uid := by
      rw [← h]
      simp
    exact not_mem_natText (by decide) package.uid hmem
  · rw [hfront] at h
    have hnot : (58 : UInt8) ∉ front₂ ++ ascii "package" := by
      rw [List.mem_append, not_or]
      exact ⟨hsecond, hpackage⟩
    obtain ⟨h, -⟩ := eq_of_first hnot huid h
    have hlast := congrArg List.getLast? h
    rw [List.getLast?_append_of_ne_nil _ (by decide), List.getLast?_append_of_ne_nil _ (by simp)] at hlast
    exact absurd hlast (by decide)

/-- The pattern of a name is found in the line of that name and in no other. -/
theorem packagePattern_infix_line (hname : checkPackageName name) (package : Installed) :
    packagePattern name <:+: package.line ↔ package.name = name := by
  constructor
  · rintro ⟨front, rest, h⟩
    have hfront := front_eq_of_infix h
    have hpackage : (58 : UInt8) ∉ ascii "package" := by decide
    have hnot : (58 : UInt8) ∉ front ++ ascii "package" := by
      rw [List.mem_append, not_or]
      exact ⟨hfront, hpackage⟩
    have hline : front ++ packagePattern name ++ rest =
        front ++ ascii "package" ++ 58 :: (name ++ 32 :: rest) := by simp [packagePattern_eq]
    rw [hline, package.line_eq] at h
    obtain ⟨-, h⟩ := eq_of_first hnot hpackage h
    exact (eq_of_first (blank_not_mem_of_valid hname) (blank_not_mem_of_valid package.valid) h).1.symm
  · rintro rfl
    exact ⟨[], ascii "uid:" ++ natText package.uid, by simp [Installed.line]⟩

theorem newline_not_mem_line (package : Installed) : newline ∉ package.line := by
  have hname : newline ∉ package.name :=
    fun hmem => absurd (isPackageChar_of_mem package.valid hmem) (by decide)
  have hpackage : newline ∉ ascii "package:" := by decide
  have hblank : newline ∉ ascii " " := by decide
  have huid : newline ∉ ascii "uid:" := by decide
  have hdigits : newline ∉ natText package.uid := not_mem_natText (by decide) _
  simp only [Installed.line, packagePattern, List.mem_append, not_or]
  exact ⟨⟨⟨⟨hpackage, hname⟩, hblank⟩, huid⟩, hdigits⟩

theorem uidOwner_appuid (package : Installed) : uidOwner (appuid package.line) = some package.uid := by
  have hsep : ascii " uid:" = 32 :: ascii "uid:" := by decide
  have hline : package.line =
      ascii "package:" ++ package.name ++ (32 :: ascii "uid:" ++ natText package.uid) := by
    have hblank : ascii " " = [32] := by decide
    simp [Installed.line, packagePattern, hblank]
  have hblank : (32 : UInt8) ∉ ascii "uid:" := by decide
  have hdigits : (32 : UInt8) ∉ natText package.uid := not_mem_natText (by decide) _
  have hlast := afterLast_append hblank (ascii "package:" ++ package.name) hdigits
  have hdecimal : (natText package.uid ≠ [] && (natText package.uid).all isDigit) = true := by
    rw [Bool.and_eq_true, decide_eq_true_eq, List.all_eq_true]
    exact ⟨natText_ne_nil _, natText_digits _⟩
  rw [appuid, hsep, hline, hlast, Option.getD_some, uidOwner, if_pos hdecimal, digitsValue_natText]

/-- The text tools find the UID of exactly the package that is asked for. -/
theorem uidIn_printPackages (packages : List Installed) (hname : checkPackageName name) :
    uidIn (printPackages packages) name = installedUid packages name := by
  have hlines : linesOf (printPackages packages) = packages.map Installed.line := by
    apply linesOf_ended
    intro l hl
    obtain ⟨package, -, rfl⟩ := List.mem_map.mp hl
    exact newline_not_mem_line package
  have hfind : (fun line => decide (packagePattern name <:+: line)) ∘ Installed.line =
      fun package => decide (package.name = name) := by
    funext package
    exact decide_eq_decide.mpr (packagePattern_infix_line hname package)
  rw [uidIn, grepFm1, hlines, List.find?_map, hfind, installedUid]
  cases packages.find? fun package => decide (package.name = name) with
  | none => rfl
  | some package => exact uidOwner_appuid package

end Lookup

end Dumbos.Firewall
