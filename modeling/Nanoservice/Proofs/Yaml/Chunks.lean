import Nanoservice.Proofs.Yaml.Loading

/-!
# The chunks of a text

The chunks of a text are runs of blanks, of line breaks and of other characters, and together they
are the text (`flatMap_chars_chunks`). Where no blank stands beside a line break, words and gaps
take turns (`isSpaced_chunks`).
-/

namespace Nanoservice.Yaml

namespace Chunk

/-- The characters of a chunk. -/
def chars : Chunk → List Char
  | .blanks n => List.replicate n ' '
  | .breaks ms => ms
  | .word w => w

/-- The chunk is a run of characters of its class. -/
def IsRun : Chunk → Prop
  | .blanks n => 0 < n
  | .breaks ms => ms ≠ [] ∧ ∀ c ∈ ms, isBreak c = true
  | .word w => w ≠ [] ∧ ∀ c ∈ w, isGapChar c = false

theorem IsRun.chars_ne_nil {k : Chunk} (h : k.IsRun) : k.chars ≠ [] := by
  cases k with
  | blanks n => simpa [chars] using Nat.ne_of_gt h
  | breaks ms => exact h.1
  | word w => exact h.1

end Chunk

/-- Words and gaps take turns. -/
def IsSpaced : List Chunk → Prop
  | [] => True
  | .word _ :: ks => (∀ k ∈ ks.head?, ∀ w, k ≠ .word w) ∧ IsSpaced ks
  | _ :: ks => (∀ k ∈ ks.head?, ∃ w, k = .word w) ∧ IsSpaced ks

theorem IsSpaced.tail {k : Chunk} {ks : List Chunk} (h : IsSpaced (k :: ks)) : IsSpaced ks := by
  cases k <;> exact h.2

/-! ## Pushing a character -/

theorem isBreak_blank : isBreak ' ' = false := by
  decide

theorem chars_pushChunk (c : Char) (ks : List Chunk) :
    (pushChunk c ks).flatMap Chunk.chars = c :: ks.flatMap Chunk.chars := by
  cases ks with
  | nil =>
    simp only [pushChunk]
    by_cases hblank : c = ' '
    · simp [hblank, Chunk.chars]
    · by_cases hbreak : isBreak c = true <;> simp [hblank, hbreak, Chunk.chars]
  | cons k ks =>
    by_cases hblank : c = ' '
    · cases k <;> simp [pushChunk, hblank, Chunk.chars, List.replicate_succ, isBreak]
    · by_cases hbreak : isBreak c = true <;>
        cases k <;> simp [pushChunk, hblank, hbreak, Chunk.chars]

theorem isRun_pushChunk (c : Char) {ks : List Chunk} (h : ∀ k ∈ ks, k.IsRun) :
    ∀ k ∈ pushChunk c ks, k.IsRun := by
  have hblank (n : Nat) : Chunk.IsRun (.blanks (n + 1)) := Nat.succ_pos n
  have hword (hne : c ≠ ' ') (hbreak : isBreak c ≠ true) : isGapChar c = false := by
    simp [isGapChar, hne, hbreak]
  cases ks with
  | nil =>
    simp only [pushChunk, List.forall_mem_singleton, beq_iff_eq]
    split
    · exact hblank 0
    · next hne =>
      split
      · next hbreak => simp [Chunk.IsRun, hbreak]
      · next hbreak => simp [Chunk.IsRun, hword hne hbreak]
  | cons k ks =>
    obtain ⟨hk, hks⟩ := List.forall_mem_cons.1 h
    by_cases hc : c = ' '
    · cases k with
      | blanks n => simpa [pushChunk, hc, Chunk.IsRun] using hks
      | breaks ms => simpa [pushChunk, hc, isBreak_blank, Chunk.IsRun] using ⟨hk, hks⟩
      | word w => simpa [pushChunk, hc, Chunk.IsRun] using ⟨hk, hks⟩
    · by_cases hbreak : isBreak c = true
      · cases k with
        | blanks n => simpa [pushChunk, hc, hbreak, Chunk.IsRun] using ⟨hk, hks⟩
        | breaks ms => simpa [pushChunk, hbreak, Chunk.IsRun] using ⟨hk.2, hks⟩
        | word w => simpa [pushChunk, hc, hbreak, Chunk.IsRun] using ⟨hk, hks⟩
      · cases k with
        | blanks n => simpa [pushChunk, hc, hbreak, Chunk.IsRun, hword hc hbreak] using ⟨hk, hks⟩
        | breaks ms => simpa [pushChunk, hc, hbreak, Chunk.IsRun, hword hc hbreak] using ⟨hk, hks⟩
        | word w => simpa [pushChunk, hc, hbreak, Chunk.IsRun, hword hc hbreak] using ⟨hk.2, hks⟩

/-- The chunks of a text are the text. -/
theorem flatMap_chars_chunks (cs : List Char) : (chunks cs).flatMap Chunk.chars = cs := by
  induction cs with
  | nil => rfl
  | cons c cs ih => rw [chunks, List.foldr_cons, chars_pushChunk, ← chunks, ih]

theorem isRun_of_mem_chunks (cs : List Char) : ∀ k ∈ chunks cs, k.IsRun := by
  induction cs with
  | nil => simp [chunks]
  | cons c cs ih => exact isRun_pushChunk c ih

/-! ## Gaps between words -/

theorem hasNeighbours_tail {α : Type} {p q : α → Bool} {a : α} {as : List α}
    (h : hasNeighbours p q (a :: as) = false) : hasNeighbours p q as = false := by
  cases as with
  | nil => rfl
  | cons b as =>
    rw [hasNeighbours, Bool.or_eq_false_iff] at h
    exact h.2

/-- A text that starts with a chunk starts with a character of it. -/
theorem exists_head_of_chunks {cs : List Char} {k : Chunk} {ks : List Chunk}
    (h : chunks cs = k :: ks) : ∃ d tail, cs = d :: tail ∧ d ∈ k.chars := by
  have hne := (isRun_of_mem_chunks cs k (h ▸ List.mem_cons_self)).chars_ne_nil
  have hcs := flatMap_chars_chunks cs
  rw [h, List.flatMap_cons] at hcs
  obtain ⟨d, tail, hk⟩ := List.exists_cons_of_ne_nil hne
  exact ⟨d, tail ++ ks.flatMap Chunk.chars, by rw [← hcs, hk, List.cons_append], by simp [hk]⟩

/-- Where no blank stands beside a line break, words and gaps take turns. -/
theorem isSpaced_chunks {cs : List Char} (hbreaks : hasNeighbours isBreak (· == ' ') cs = false)
    (hblanks : hasNeighbours (· == ' ') isBreak cs = false) : IsSpaced (chunks cs) := by
  induction cs with
  | nil => trivial
  | cons c cs ih =>
    have hspaced := ih (hasNeighbours_tail hbreaks) (hasNeighbours_tail hblanks)
    have hruns := isRun_of_mem_chunks cs
    rw [chunks, List.foldr_cons, ← chunks]
    cases hks : chunks cs with
    | nil =>
      by_cases hc : c = ' '
      · simp [pushChunk, hc, IsSpaced]
      · by_cases hbreak : isBreak c = true <;> simp [pushChunk, hc, hbreak, IsSpaced]
    | cons k ks =>
      obtain ⟨d, tail, rfl, hd⟩ := exists_head_of_chunks hks
      rw [hks] at hspaced hruns
      have hrun := hruns k List.mem_cons_self
      rw [hasNeighbours, Bool.or_eq_false_iff, Bool.and_eq_false_iff] at hbreaks hblanks
      cases k with
      | blanks n =>
        obtain rfl : d = ' ' := List.eq_of_mem_replicate hd
        have hnobreak : isBreak c = false := by simpa using hbreaks.1
        by_cases hc : c = ' '
        · simpa [pushChunk, hc, IsSpaced] using hspaced
        · simpa [pushChunk, hc, hnobreak, IsSpaced] using hspaced
      | breaks ms =>
        have hnoblank : c ≠ ' ' := by simpa [hrun.2 d hd] using hblanks.1
        by_cases hbreak : isBreak c = true
        · simpa [pushChunk, hbreak, IsSpaced] using hspaced
        · simpa [pushChunk, hnoblank, hbreak, IsSpaced] using hspaced
      | word w =>
        by_cases hc : c = ' '
        · simpa [pushChunk, hc, IsSpaced] using hspaced
        · by_cases hbreak : isBreak c = true <;>
            simpa [pushChunk, hc, hbreak, IsSpaced] using hspaced

end Nanoservice.Yaml
