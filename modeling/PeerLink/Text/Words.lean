/-!
# Words

The words of a text are what stands between its white space. Joined with single blanks they are
the text again if and only if it was written that way (`singleSpaced_iff`).
-/

namespace PeerLink.Text

/-- The Unicode property White_Space. -/
def isWhitespace (c : Char) : Bool :=
  let code := c.toNat
  9 ≤ code && code ≤ 13 || code == 0x20 || code == 0x85 || code == 0xa0 || code == 0x1680 ||
    0x2000 ≤ code && code ≤ 0x200a || code == 0x2028 || code == 0x2029 || code == 0x202f ||
    code == 0x205f || code == 0x3000

def splitWhitespace (text : String) : List String :=
  ((text.toList.splitOnP isWhitespace).filter (· ≠ [])).map String.ofList

def IsWord (word : String) : Prop := word ≠ "" ∧ ∀ c ∈ word.toList, isWhitespace c = false

/-- One or more words with single blanks between them. -/
def SingleSpaced (text : String) : Prop :=
  ∃ words : List String, words ≠ [] ∧ (∀ word ∈ words, IsWord word) ∧ text = " ".intercalate words

theorem of_mem_splitOnP {α : Type} {p : α → Bool} {xs part : List α}
    (mem : part ∈ xs.splitOnP p) : ∀ x ∈ part, p x = false := by
  induction xs generalizing part with
  | nil =>
    rw [List.splitOnP_nil, List.mem_singleton] at mem
    subst mem
    intro x inPart
    cases inPart
  | cons y ys ih =>
    rw [List.splitOnP_cons_eq_if_modifyHead] at mem
    split at mem
    · obtain rfl | later := List.mem_cons.mp mem
      · intro x inPart
        cases inPart
      · exact ih later
    · rename_i notSep
      obtain ⟨head, tail, split⟩ := List.exists_cons_of_ne_nil (List.splitOnP_ne_nil p ys)
      rw [split, List.modifyHead_cons] at mem
      obtain rfl | later := List.mem_cons.mp mem
      · intro x inPart
        obtain rfl | inHead := List.mem_cons.mp inPart
        · exact Bool.eq_false_iff.mpr notSep
        · exact ih (split ▸ List.mem_cons_self) x inHead
      · exact ih (split ▸ List.mem_cons_of_mem head later)

theorem isWord_of_mem_splitWhitespace {text word : String} (mem : word ∈ splitWhitespace text) :
    IsWord word := by
  obtain ⟨part, inParts, rfl⟩ := List.mem_map.mp mem
  obtain ⟨ofSplit, nonempty⟩ := List.mem_filter.mp inParts
  refine ⟨fun empty => ?_, ?_⟩
  · have : part = [] := by rw [← String.toList_ofList (l := part), empty]; rfl
    simp [this] at nonempty
  · rw [String.toList_ofList]
    exact of_mem_splitOnP ofSplit

/-- Splitting undoes joining with one separator. -/
theorem splitOnP_intercalate {α : Type} {p : α → Bool} {sep : α} (isSep : p sep = true)
    {parts : List (List α)} (some_part : parts ≠ [])
    (plain : ∀ part ∈ parts, ∀ x ∈ part, p x = false) :
    ([sep].intercalate parts).splitOnP p = parts := by
  induction parts with
  | nil => exact absurd rfl some_part
  | cons part parts ih =>
    obtain ⟨here, later⟩ := List.forall_mem_cons.mp plain
    cases parts with
    | nil =>
      rw [List.intercalate_singleton]
      exact List.splitOnP_eq_singleton here
    | cons next parts =>
      rw [List.intercalate_cons_cons, List.append_assoc, List.singleton_append,
        List.splitOnP_append_cons_of_forall_mem here sep isSep,
        ih (List.cons_ne_nil next parts) later]

theorem splitWhitespace_intercalate {words : List String} (some_word : words ≠ [])
    (areWords : ∀ word ∈ words, IsWord word) :
    splitWhitespace (" ".intercalate words) = words := by
  have split : (" ".intercalate words).toList.splitOnP isWhitespace = words.map String.toList := by
    rw [String.toList_intercalate]
    refine splitOnP_intercalate (by decide) (mt List.map_eq_nil_iff.mp some_word) ?_
    intro part mem
    obtain ⟨word, inWords, rfl⟩ := List.mem_map.mp mem
    exact (areWords word inWords).2
  have all : (words.map String.toList).filter (· ≠ []) = words.map String.toList := by
    refine List.filter_eq_self.mpr fun part mem => ?_
    obtain ⟨word, inWords, rfl⟩ := List.mem_map.mp mem
    simpa using (areWords word inWords).1
  rw [splitWhitespace, split, all, List.map_map]
  exact (List.map_congr_left fun word _ => String.ofList_toList).trans (List.map_id words)

theorem singleSpaced_iff {text : String} :
    SingleSpaced text ↔ text ≠ "" ∧ " ".intercalate (splitWhitespace text) = text := by
  constructor
  · rintro ⟨words, some_word, areWords, joined⟩
    have split := splitWhitespace_intercalate some_word areWords
    rw [← joined] at split
    refine ⟨?_, by rw [split, joined]⟩
    rintro rfl
    exact some_word split.symm
  · rintro ⟨nonempty, same⟩
    refine ⟨splitWhitespace text, fun none => ?_, fun word => isWord_of_mem_splitWhitespace,
      same.symm⟩
    rw [none] at same
    exact nonempty same.symm

end PeerLink.Text
