import Nanoservice.OpenApi.Document
import Nanoservice.Proofs.Disk.Path

/-!
# Paths in a document

The path of an endpoint in a document differs from its own in no more than one leading segment, the
whole base segment, and in the slash in front: what is left of it stands there symbol by symbol
(`OpenApi.symbols_relativePath`), and its segments are those of the endpoint's path without the base
segment (`OpenApi.components_relativePath`).
-/

namespace Nanoservice.OpenApi

open Nanoservice.Path (components)

/-! ## Segments -/

/-- The segments of a path below its root; the root itself has one there, which is empty. -/
def below (path : String) : List String :=
  match components path with
  | "" :: s :: ss => s :: ss
  | ss => ss

/-- Segments without the base segment in front. -/
def withoutBase : List String → List String
  | ["api"] => [""]
  | "api" :: s :: ss => s :: ss
  | ss => ss

theorem withoutBase_of_ne {s : String} (h : s ≠ "api") (ss : List String) :
    withoutBase (s :: ss) = s :: ss := by
  unfold withoutBase
  split
  · next heq => exact absurd (List.cons.inj heq).1 h
  · next heq => exact absurd (List.cons.inj heq).1 h
  · rfl

theorem components_slash (s : String) : components ("/" ++ s) = "" :: components s := by
  have h := Path.components_append "" s
  rwa [String.empty_append] at h

theorem below_slash (s : String) : below ("/" ++ s) = components s := by
  rw [below, components_slash]
  cases h : components s with
  | nil => exact absurd h (Path.components_ne_nil s)
  | cons => rfl

/-- A text has no slash, or its first segment is what stands in front of the first one. -/
theorem components_cases (s : String) : components s = [s] ∨
    ∃ first rest, s = first ++ "/" ++ rest ∧ components s = first :: components rest := by
  by_cases hslash : '/' ∈ s.toList
  · obtain ⟨before, after, hs, hbefore⟩ := List.eq_append_cons_of_mem hslash
    have happend : s = String.ofList before ++ "/" ++ String.ofList after := by
      apply String.toList_injective
      simpa using hs
    refine .inr ⟨String.ofList before, String.ofList after, happend, ?_⟩
    rw [happend, Path.components_append, Path.components_of_not_mem (by simpa using hbefore)]
    rfl
  · exact .inl (Path.components_of_not_mem hslash)

theorem below_of_not_slash {path : String} (h : ∀ rest, path ≠ "/" ++ rest) :
    below path = components path := by
  rw [below]
  split
  · next s ss heq =>
    rcases components_cases path with hpath | ⟨first, rest, rfl, hpath⟩
    · cases hpath.symm.trans heq
    · obtain rfl : first = "" := (List.cons.inj (hpath.symm.trans heq)).1
      exact absurd (by rw [String.empty_append]) (h rest)
  · rfl

/-- What becomes of a path: the base segment is cut off, or else a slash is put in front unless it
is there. -/
theorem relativePath_cases (path : String) :
    (path = "/" ++ "api" ∧ relativePath path = "/" ++ "") ∨
    (∃ rest, path = "/" ++ ("api" ++ "/" ++ rest) ∧ relativePath path = "/" ++ rest) ∨
    (∃ rest, path = "/" ++ rest ∧ rest ≠ "api" ∧ (∀ tail, rest ≠ "api" ++ "/" ++ tail) ∧
      relativePath path = path) ∨
    ((∀ rest, path ≠ "/" ++ rest) ∧ relativePath path = "/" ++ path) := by
  unfold relativePath
  split
  · next hpath => exact .inl ⟨String.toList_injective (by simpa using hpath), rfl⟩
  · next rest hpath =>
    refine .inr (.inl ⟨String.ofList rest, String.toList_injective (by simpa using hpath), ?_⟩)
    exact String.toList_injective (by simp)
  · next hbase hbelow =>
    refine .inr (.inr ?_)
    dsimp only
    split
    · next rest hpath =>
      have hself : path = "/" ++ String.ofList rest :=
        String.toList_injective (by simpa using hpath)
      refine .inl ⟨String.ofList rest, hself, fun heq => hbase ?_, fun tail heq => ?_, ?_⟩
      · rw [hself, heq]
        rfl
      · refine hbelow tail.toList ?_
        rw [hself, heq]
        simp
      · rw [← hpath, String.ofList_toList]
    · next hslash =>
      refine .inr ⟨fun rest heq => hslash rest.toList ?_, ?_⟩
      · simp [heq]
      · exact String.toList_injective (by simp)

/-- The path of an endpoint in a document begins with a slash. -/
theorem isAbsolute_relativePath (path : String) : Path.isAbsolute (relativePath path) = true := by
  have hslash (rest : String) : Path.isAbsolute ("/" ++ rest) = true := by simp [Path.isAbsolute]
  rcases relativePath_cases path with ⟨-, hrelative⟩ | ⟨rest, -, hrelative⟩ |
    ⟨rest, hpath, -, -, hrelative⟩ | ⟨-, hrelative⟩
  · rw [hrelative, hslash]
  · rw [hrelative, hslash]
  · rw [hrelative, hpath, hslash]
  · rw [hrelative, hslash]

theorem exists_relativePath (path : String) : ∃ cs, (relativePath path).toList = '/' :: cs :=
  List.head?_eq_some_iff.1 (by simpa [Path.isAbsolute] using isAbsolute_relativePath path)

/-- A path in a document begins with a slash, and its segments are those of the path of the endpoint
without the base segment in front, which only a path that begins with a slash has. -/
theorem components_relativePath (path : String) : components (relativePath path) =
    "" :: if Path.isAbsolute path then withoutBase (below path) else below path := by
  have hslash (rest : String) : Path.isAbsolute ("/" ++ rest) = true := by simp [Path.isAbsolute]
  rcases relativePath_cases path with ⟨rfl, hrelative⟩ | ⟨rest, rfl, hrelative⟩ |
    ⟨rest, rfl, hbase, hbelow, hrelative⟩ | ⟨hpath, hrelative⟩
  · rw [hrelative, if_pos (hslash _), below_slash]
    decide
  · have hapi : components "api" = ["api"] := by decide
    rw [hrelative, if_pos (hslash _), below_slash, components_slash, Path.components_append, hapi]
    cases h : components rest with
    | nil => exact absurd h (Path.components_ne_nil rest)
    | cons => rfl
  · rw [hrelative, if_pos (hslash _), below_slash, components_slash]
    rcases components_cases rest with hrest | ⟨first, tail, rfl, hrest⟩
    · rw [hrest, withoutBase_of_ne hbase]
    · rw [hrest, withoutBase_of_ne]
      rintro rfl
      exact hbelow tail rfl
  · have hrelativeTo : ¬ Path.isAbsolute path = true := by
      intro habsolute
      obtain ⟨cs, hcs⟩ := List.head?_eq_some_iff.1 (by simpa [Path.isAbsolute] using habsolute)
      exact hpath (String.ofList cs) (String.toList_injective (by simpa using hcs))
    rw [if_neg hrelativeTo, hrelative, components_slash, below_of_not_slash hpath]

/-! ## Symbols -/

/-- What is cut off a path and what is put in front of the rest. -/
theorem relativePath_split (path : String) : ∃ cut put rest, path.toList = cut ++ rest ∧
    (relativePath path).toList = put ++ rest ∧ (cut = [] ∨ cut = ['/', 'a', 'p', 'i']) ∧
      (put = [] ∨ put = ['/']) := by
  rcases relativePath_cases path with ⟨hpath, hrelative⟩ | ⟨rest, hpath, hrelative⟩ |
    ⟨-, -, -, -, hrelative⟩ | ⟨-, hrelative⟩
  · exact ⟨['/', 'a', 'p', 'i'], ['/'], [], by simp [hpath], by simp [hrelative], .inr rfl,
      .inr rfl⟩
  · exact ⟨['/', 'a', 'p', 'i'], [], '/' :: rest.toList, by simp [hpath], by simp [hrelative],
      .inr rfl, .inl rfl⟩
  · exact ⟨[], [], path.toList, rfl, by rw [hrelative]; rfl, .inl rfl, .inl rfl⟩
  · exact ⟨[], ['/'], path.toList, rfl, by simp [hrelative], .inl rfl, .inr rfl⟩

/-- What is left of a path stands in the document symbol by symbol. -/
theorem symbols_relativePath (path : RawText) : ∃ (cut put : List Char) (kept : List Symbol),
    path.symbols = cut.map .char ++ kept ∧
      (path.rewrite relativePath).symbols = put.map .char ++ kept ∧
      (cut = [] ∨ cut = ['/', 'a', 'p', 'i']) ∧ (put = [] ∨ put = ['/']) := by
  obtain ⟨cut, put, rest, hpath, hrelative, hcut, hput⟩ := relativePath_split path.shown
  have hcut' : Symbol.replacement ∉ cut := by rcases hcut with rfl | rfl <;> decide
  have hput' : Symbol.replacement ∉ put := by rcases hput with rfl | rfl <;> decide
  obtain ⟨kept, hsymbols, hrewritten⟩ := RawText.symbols_rewrite hpath hrelative hcut' hput'
  exact ⟨cut, put, kept, hsymbols, hrewritten, hcut, hput⟩

end Nanoservice.OpenApi
