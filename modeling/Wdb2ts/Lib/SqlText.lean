import Mathlib.Tactic

/-!
# String literals in SQL text

A string literal is delimited by quotes, and a doubled quote in it denotes a quote.  A
piece of text that closes its literals can be read on its own, and the literals of a text
are those of its pieces.
-/

universe u

namespace SqlText

variable {α : Type u} [DecidableEq α]

/-- The position of the reader: outside a literal, inside one that has denoted some text, or
behind a quote that closes it unless another one follows. -/
inductive Position (α : Type u) where
  | outside
  | inside (read : List α)
  | closing (read : List α)

/-- What the string literals of a text denote, in order.  There is no result when the last
literal is not closed. -/
def literals (quote : α) : Position α → List α → Option (List (List α))
  | .outside, [] => some []
  | .inside _, [] => none
  | .closing read, [] => some [read]
  | .outside, next :: rest =>
      if next = quote then literals quote (.inside []) rest else literals quote .outside rest
  | .inside read, next :: rest =>
      if next = quote then literals quote (.closing read) rest
      else literals quote (.inside (read ++ [next])) rest
  | .closing read, next :: rest =>
      if next = quote then literals quote (.inside (read ++ [quote])) rest
      else (literals quote .outside rest).map fun others => read :: others

/-- The literal that denotes a text. -/
def literal (quote : α) (text : List α) : List α :=
  quote :: (text.flatMap fun next => if next = quote then [quote, quote] else [next]) ++ [quote]

/-- A piece of text whose literals denote the given texts, whatever is before and behind
it.  Behind it is no quote, which could double the last one of the piece. -/
def Reads (quote : α) (text : List α) (values : List (List α)) : Prop :=
  ∀ rest : List α, rest.head? ≠ some quote →
    literals quote .outside (text ++ rest) =
      (literals quote .outside rest).map fun others => values ++ others

variable {quote : α}

/-- Text without quotes only delays the reading. -/
theorem literals_append_of_not_mem {text : List α} (noQuote : quote ∉ text) (rest : List α) :
    literals quote .outside (text ++ rest) = literals quote .outside rest := by
  induction text with
  | nil => rfl
  | cons next others ih =>
      have different : next ≠ quote := by
        rintro rfl
        exact noQuote List.mem_cons_self
      have noQuoteOthers : quote ∉ others := fun member =>
        noQuote (List.mem_cons_of_mem next member)
      rw [List.cons_append, literals, if_neg different]
      exact ih noQuoteOthers

theorem reads_of_not_mem {text : List α} (noQuote : quote ∉ text) : Reads quote text [] := by
  intro rest _
  rw [literals_append_of_not_mem noQuote]
  simp

/-- Text without quotes in front of a piece. -/
theorem Reads.prepend {text piece : List α} {values : List (List α)} (noQuote : quote ∉ text)
    (reads : Reads quote piece values) : Reads quote (text ++ piece) values := by
  intro rest apart
  rw [List.append_assoc, literals_append_of_not_mem noQuote]
  exact reads rest apart

/-- Two pieces, unless the quotes between them meet. -/
theorem Reads.append {first second : List α} {firstValues secondValues : List (List α)}
    (readsFirst : Reads quote first firstValues) (readsSecond : Reads quote second secondValues)
    (apart : second.head? ≠ some quote) :
    Reads quote (first ++ second) (firstValues ++ secondValues) := by
  intro rest restApart
  have apartRest : (second ++ rest).head? ≠ some quote := by
    cases second with
    | nil => exact restApart
    | cons next others => exact apart
  rw [List.append_assoc, readsFirst (second ++ rest) apartRest, readsSecond rest restApart]
  simp [Option.map_map, Function.comp_def]

/-- Text without quotes behind a piece. -/
theorem Reads.append_code {piece text : List α} {values : List (List α)}
    (reads : Reads quote piece values) (noQuote : quote ∉ text) :
    Reads quote (piece ++ text) values := by
  have apart : text.head? ≠ some quote := by
    intro isQuote
    exact noQuote (List.mem_of_head? isQuote)
  have both := reads.append (reads_of_not_mem noQuote) apart
  rwa [List.append_nil] at both

theorem literals_inside (quote : α) (text rest read : List α) :
    literals quote (.inside read)
        ((text.flatMap fun next => if next = quote then [quote, quote] else [next]) ++ rest) =
      literals quote (.inside (read ++ text)) rest := by
  induction text generalizing read with
  | nil => simp
  | cons next others ih =>
      rw [List.flatMap_cons, List.append_assoc]
      by_cases isQuote : next = quote
      · simp [isQuote, literals, ih]
      · simp [isQuote, literals, ih]

/-- A literal is read as the text it denotes. -/
theorem reads_literal (text : List α) : Reads quote (literal quote text) [text] := by
  intro rest apart
  have inside := literals_inside quote text (quote :: rest) []
  have closed : literals quote (.inside text) (quote :: rest) =
      (literals quote .outside rest).map fun others => text :: others := by
    cases rest with
    | nil => simp [literals]
    | cons next others =>
        have different : next ≠ quote := by
          rintro rfl
          exact apart rfl
        simp [literals, different]
  rw [literal, List.cons_append, List.cons_append, literals, if_pos rfl, List.append_assoc,
    List.singleton_append, inside, List.nil_append, closed]
  rfl

/-- A text without quotes is its own literal. -/
theorem literal_of_not_mem {text : List α} (noQuote : quote ∉ text) :
    literal quote text = quote :: text ++ [quote] := by
  have same : (text.flatMap fun next => if next = quote then [quote, quote] else [next]) =
      text := by
    induction text with
    | nil => rfl
    | cons next others ih =>
        have different : next ≠ quote := by
          rintro rfl
          exact noQuote List.mem_cons_self
        have noQuoteOthers : quote ∉ others := fun member =>
          noQuote (List.mem_cons_of_mem next member)
        rw [List.flatMap_cons, if_neg different, ih noQuoteOthers, List.singleton_append]
  rw [literal, same]

/-- The literals of a text that is one piece. -/
theorem Reads.literals_eq {text : List α} {values : List (List α)}
    (reads : Reads quote text values) : literals quote .outside text = some values := by
  have read := reads [] (by simp)
  simpa [literals] using read

end SqlText
