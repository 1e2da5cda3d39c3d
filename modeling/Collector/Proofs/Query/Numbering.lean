/-
# Placeholders and what they stand for

The contents of the phrases and groups of a query go into two tables, and a placeholder has the
number of its entry.  A part of the query is numbered from where the part in front of it has
stopped.  `Numbered` says that the tables of the whole query hold what the part has put into its
own, from those numbers on.  Each kind of lexeme hands this on to the lexemes behind it, and then
a placeholder finds its contents (`Numbered.phrase`, `Numbered.group`).
-/
import Collector.Proofs.Query.Outline

namespace Collector
namespace Query

/-- The tables hold the entries of a part of the query, its phrases from the number `p` on and
its groups from `g` on. -/
structure Numbered (tables : Tables) (p g : Nat) (part : Tokenized) : Prop where
  phrases : tables.phrases.drop p = part.phrases
  groups : tables.groups.drop g = part.groups

/-- A tokenized query is numbered from the start. -/
theorem numbered_self (query : Tokenized) : Numbered query.toTables 0 0 query :=
  ⟨List.drop_zero, List.drop_zero⟩

theorem getElem?_of_drop {α : Type} {list rest : List α} {n : Nat} {a : α}
    (h : list.drop n = a :: rest) : list[n]? = some a := by
  rw [← List.head?_drop, h, List.head?_cons]

theorem drop_succ_of_drop {α : Type} {list rest : List α} {n : Nat} {a : α}
    (h : list.drop n = a :: rest) : list.drop (n + 1) = rest := by
  rw [← List.drop_drop, h, List.drop_succ_cons, List.drop_zero]

variable {tables : Tables} {p g : Nat} {rest : List (Lexeme Mark)}

theorem Numbered.word {w : List Char}
    (h : Numbered tables p g (.ofLexemes p g (.word w :: rest))) :
    Numbered tables p g (.ofLexemes p g rest) :=
  ⟨h.phrases, h.groups⟩

/-- A phrase is found under its number. -/
theorem Numbered.phrase {text : List Char}
    (h : Numbered tables p g (.ofLexemes p g (.mark (.phrase text) :: rest))) :
    tables.phrases[p]? = some (String.ofList text) ∧
      Numbered tables (p + 1) g (.ofLexemes (p + 1) g rest) :=
  ⟨getElem?_of_drop h.phrases, drop_succ_of_drop h.phrases, h.groups⟩

/-- A group is found under its number, and its phrases under those that its items have. -/
theorem Numbered.group {items : List (Lexeme (List Char))}
    (h : Numbered tables p g (.ofLexemes p g (.mark (.group items) :: rest))) :
    tables.groups[g]? = some ⟨groupItems p items⟩ ∧
      (∃ more, tables.phrases.drop p = phrasesIn items ++ more) ∧
      Numbered tables (p + (phrasesIn items).length) (g + 1)
        (.ofLexemes (p + (phrasesIn items).length) (g + 1) rest) := by
  have hphrases : tables.phrases.drop p = phrasesIn items ++
      (Tokenized.ofLexemes (p + (phrasesIn items).length) (g + 1) rest).phrases := h.phrases
  refine ⟨getElem?_of_drop h.groups, ⟨_, hphrases⟩, ?_, drop_succ_of_drop h.groups⟩
  rw [← List.drop_drop, hphrases, List.drop_left]

end Query
end Collector
