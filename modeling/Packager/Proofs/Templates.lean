import Packager.Proofs.FileNames
import Packager.Settings
/-!
# Proofs.Templates — a template expands to the name of the file

A player puts the id of the representation and the start of a segment in the places that the template leaves for them.
With a base name that the settings accept, that gives the name under which the segment is written
(`expand_segmentTemplate`): such a name has no dollar sign, so the template has no other places.
-/
namespace Packager
namespace Naming

/-- Text with every occurrence of a pattern replaced, from left to right; `skip` characters of an occurrence are still to
be passed over. -/
def replaceFrom (pattern value : List Char) : Nat → List Char → List Char
  | _, [] => []
  | skip + 1, _ :: cs => replaceFrom pattern value skip cs
  | 0, c :: cs =>
    if pattern.isPrefixOf (c :: cs) then value ++ replaceFrom pattern value (pattern.length - 1) cs
    else c :: replaceFrom pattern value 0 cs

def replaceAll (pattern value text : String) : String :=
  .ofList (replaceFrom pattern.toList value.toList 0 text.toList)

/-- The name that a template stands for. -/
def expand (template representation time : String) : String :=
  replaceAll "$Time$" time (replaceAll "$RepresentationID$" representation template)

section
variable {d : Char} {ds value : List Char}

/-- Where the first character of the pattern does not occur, nothing is replaced. -/
theorem replaceFrom_of_not_mem : ∀ {l : List Char} (rest : List Char), d ∉ l →
    replaceFrom (d :: ds) value 0 (l ++ rest) = l ++ replaceFrom (d :: ds) value 0 rest
  | [], _, _ => rfl
  | c :: l, rest, h => by
    have hne : ¬d = c := fun hc => h (hc ▸ List.mem_cons_self)
    have hno : (d :: ds).isPrefixOf (c :: (l ++ rest)) = false := by
      show (d == c && ds.isPrefixOf (l ++ rest)) = false
      rw [beq_eq_false_iff_ne.2 hne, Bool.false_and]
    have hrest : d ∉ l := fun hm => h (List.mem_cons_of_mem c hm)
    rw [List.cons_append, replaceFrom, hno, if_neg Bool.false_ne_true, replaceFrom_of_not_mem rest hrest,
      List.cons_append]

theorem replaceFrom_skip {pattern : List Char} : ∀ (l rest : List Char),
    replaceFrom pattern value l.length (l ++ rest) = replaceFrom pattern value 0 rest
  | [], _ => rfl
  | _ :: l, rest => replaceFrom_skip l rest

theorem replaceFrom_pattern (rest : List Char) :
    replaceFrom (d :: ds) value 0 (d :: ds ++ rest) = value ++ replaceFrom (d :: ds) value 0 rest := by
  have hyes : (d :: ds).isPrefixOf (d :: (ds ++ rest)) = true := by
    rw [List.isPrefixOf_iff_prefix]
    exact List.prefix_append (d :: ds) rest
  rw [List.cons_append, replaceFrom, hyes, if_pos rfl]
  exact congrArg (value ++ ·) (replaceFrom_skip ds rest)

end

/-- **The template of a track, expanded, is the name of the segment.** -/
theorem expand_segmentTemplate {b representation : String} (hb : '$' ∉ b.toList)
    (hr : '$' ∉ representation.toList) (time : String) (kind : Kind) :
    expand (segmentTemplate b (fileExtension kind)) representation time =
      segmentName b representation time (fileExtension kind) := by
  have hcut : ∀ l : List Char, b.toList ++ '_' :: l = (b.toList ++ ['_']) ++ l := fun l => by simp
  have hfront : '$' ∉ b.toList ++ ['_'] := by
    intro h
    rcases List.mem_append.1 h with h | h
    · exact hb h
    · cases List.mem_singleton.1 h
  have hfirst : (replaceAll "$RepresentationID$" representation (segmentTemplate b (fileExtension kind))).toList =
      b.toList ++ '_' :: (representation.toList ++ '_' :: ("$Time$".toList ++ '.' :: (fileExtension kind).toList)) := by
    unfold replaceAll segmentTemplate
    rw [String.toList_ofList, toList_segmentName, hcut]
    have hid : "$RepresentationID$".toList = '$' :: "RepresentationID$".toList := by decide
    have htail : replaceFrom ('$' :: "RepresentationID$".toList) representation.toList 0
        ('_' :: ("$Time$".toList ++ '.' :: (fileExtension kind).toList)) =
        '_' :: ("$Time$".toList ++ '.' :: (fileExtension kind).toList) := by
      cases kind <;> rfl
    rw [hid, replaceFrom_of_not_mem _ hfront, replaceFrom_pattern, htail, ← hcut]
  have hmiddle : '$' ∉ (b.toList ++ ['_']) ++ (representation.toList ++ ['_']) := by
    intro h
    rcases List.mem_append.1 h with h | h
    · exact hfront h
    · rcases List.mem_append.1 h with h | h
      · exact hr h
      · cases List.mem_singleton.1 h
  have hsecond : (expand (segmentTemplate b (fileExtension kind)) representation time).toList =
      (segmentName b representation time (fileExtension kind)).toList := by
    have htime : "$Time$".toList = '$' :: "Time$".toList := by decide
    have hcut' : b.toList ++ '_' :: (representation.toList ++ '_' ::
        ("$Time$".toList ++ '.' :: (fileExtension kind).toList)) =
        ((b.toList ++ ['_']) ++ (representation.toList ++ ['_'])) ++
          ('$' :: "Time$".toList ++ '.' :: (fileExtension kind).toList) := by
      rw [htime]
      simp
    unfold expand
    rw [replaceAll, String.toList_ofList, hfirst, hcut', htime, replaceFrom_of_not_mem _ hmiddle, replaceFrom_pattern,
      toList_segmentName]
    cases kind <;> simp [replaceFrom, fileExtension]
  exact String.toList_inj.1 hsecond

end Naming

/-- A base name that the settings accept has no dollar sign. -/
theorem Settings.not_mem_of_checkBaseName {name : String} (h : checkBaseName name = .ok ()) : '$' ∉ name.toList := by
  unfold checkBaseName at h
  split at h
  · rename_i hn
    intro hm
    have hall : name.toList.all isNameChar = true := by
      unfold isBaseName at hn
      rw [Bool.and_eq_true] at hn
      exact hn.2
    have hc := List.all_eq_true.1 hall _ hm
    revert hc
    decide
  · cases h

end Packager
