import Cancelable.Proofs.Performance
import Cancelable.Scenario.Setting

/-!
# Reading quoted tokens

A quoted token of a query language begins and ends with its quote, and a quote of the text is
written twice.  So whoever scans a statement looks one character ahead at every quote: a second one
belongs to the text, anything else ends the token.  Here the scanner is defined, and quoting is
measured by it.

Quotes at the ends of a text stand next to the delimiters, which are the same character, and rows of
quotes can be of any length.  The scanner stays in step nevertheless: it takes the quotes of a text
two by two, so a delimiter is never the second of two.

Main statements: the scanner finds a text exactly where it has been quoted, with no further quote
after it (`Text.Doubled.scan_eq_some_iff`), and so what a connection answers for a text is read as
that text and as no other (`Simulation.Bench.quoting_unambiguous`).
-/

namespace Cancelable
namespace Text
namespace Doubled

/-! ## The scanner -/

/-- Scan what follows an opening quote: the text of the token, and what comes after the token. -/
def scanBody (quote : Char) : List Char → Option (List Char × List Char)
  | [] => none
  | [c] => if c = quote then some ([], []) else none
  | c :: d :: rest =>
    if c = quote then
      -- of two quotes the first one says that the second one belongs to the text
      if d = quote then (scanBody quote rest).map fun (text, after) => (quote :: text, after)
      else some ([], d :: rest)
    else (scanBody quote (d :: rest)).map fun (text, after) => (c :: text, after)

/-- Scan a token that begins with the quote. -/
def scanChars (quote : Char) : List Char → Option (List Char × List Char)
  | [] => none
  | c :: rest => if c = quote then scanBody quote rest else none

/-- Scan a token: its text, and what comes after it. -/
def scan (quote : Char) (input : String) : Option (String × String) :=
  (scanChars quote input.toList).map fun (text, after) => (String.ofList text, String.ofList after)

/-- What can come after a token without being taken for a part of it. -/
def CanFollow (quote : Char) (after : List Char) : Prop :=
  after.head? ≠ some quote

variable {quote c : Char} {text after rest input : List Char}

theorem CanFollow.ne {d : Char} (follows : CanFollow quote (d :: rest)) : d ≠ quote := by
  intro eq
  exact follows (congrArg some eq)

/-! ## Steps of the scanner -/

theorem scanBody_quote_quote :
    scanBody quote (quote :: quote :: rest) =
      (scanBody quote rest).map fun p => (quote :: p.1, p.2) := by
  simp [scanBody]

/-- A quote that no other one follows ends the token. -/
theorem scanBody_quote (follows : CanFollow quote after) :
    scanBody quote (quote :: after) = some ([], after) := by
  cases after with
  | nil => simp [scanBody]
  | cons d rest => simp [scanBody, follows.ne]

theorem scanBody_of_ne (ne : c ≠ quote) :
    scanBody quote (c :: rest) = (scanBody quote rest).map fun p => (c :: p.1, p.2) := by
  cases rest with
  | nil => simp [scanBody, ne]
  | cons d rest => simp [scanBody, ne]

/-! ## Quoted texts -/

/-- The scanner takes the quotes of a text two by two, and so it finds the one that ends it. -/
theorem scanBody_double (follows : CanFollow quote after) (text : List Char) :
    scanBody quote (double quote text ++ quote :: after) = some (text, after) := by
  induction text with
  | nil => exact scanBody_quote follows
  | cons c text ih =>
    by_cases eq : c = quote
    · subst eq
      simp [double, scanBody_quote_quote, ih]
    · simp [double, eq, scanBody_of_ne eq, ih]

/-- Whatever the scanner takes for the rest of a token is a text with its quotes doubled, and its
end is not followed by a quote. -/
theorem eq_double_of_scanBody (found : scanBody quote input = some (text, after)) :
    input = double quote text ++ quote :: after ∧ CanFollow quote after := by
  fun_induction scanBody quote input generalizing text after with
  | case1 => simp at found
  | case2 =>
    obtain ⟨rfl, rfl⟩ : [] = text ∧ [] = after := by simpa using found
    exact ⟨rfl, by simp [CanFollow]⟩
  | case3 => simp at found
  | case4 rest ih =>
    -- two quotes: the text goes on, and has one quote
    obtain ⟨text', scanned, rfl⟩ : ∃ text', scanBody quote rest = some (text', after) ∧
        quote :: text' = text := by
      simpa using found
    obtain ⟨rfl, follows⟩ := ih scanned
    exact ⟨by simp [double], follows⟩
  | case5 d rest ne =>
    obtain ⟨rfl, rfl⟩ : [] = text ∧ d :: rest = after := by simpa using found
    refine ⟨rfl, ?_⟩
    simpa [CanFollow] using ne
  | case6 c d rest ne ih =>
    obtain ⟨text', scanned, rfl⟩ : ∃ text', scanBody quote (d :: rest) = some (text', after) ∧
        c :: text' = text := by
      simpa using found
    obtain ⟨eq, follows⟩ := ih scanned
    refine ⟨?_, follows⟩
    simp [double, ne, eq]

/-- The scanner finds a text exactly where it has been quoted, with something after it that cannot
be taken for a part of it. -/
theorem scanChars_eq_some_iff :
    scanChars quote input = some (text, after) ↔
      input = quote :: double quote text ++ quote :: after ∧ CanFollow quote after := by
  constructor
  · intro found
    cases input with
    | nil => simp [scanChars] at found
    | cons c rest =>
      by_cases opens : c = quote
      · have scanned : scanBody quote rest = some (text, after) := by
          simpa [scanChars, opens] using found
        obtain ⟨rfl, follows⟩ := eq_double_of_scanBody scanned
        exact ⟨by simp [opens], follows⟩
      · simp [scanChars, opens] at found
  · rintro ⟨rfl, follows⟩
    simpa [scanChars] using scanBody_double follows text

theorem toList_enclose (quote : Char) (s : String) :
    (enclose quote s).toList = quote :: double quote s.toList ++ [quote] := by
  simp [enclose]

theorem scan_eq_some_iff {input s after : String} :
    scan quote input = some (s, after) ↔
      input = enclose quote s ++ after ∧ CanFollow quote after.toList := by
  have chars : scan quote input = some (s, after) ↔
      scanChars quote input.toList = some (s.toList, after.toList) := by
    constructor
    · intro found
      obtain ⟨text, rest, scanned, rfl, rfl⟩ : ∃ text rest,
          scanChars quote input.toList = some (text, rest) ∧ String.ofList text = s ∧
            String.ofList rest = after := by
        simpa [scan] using found
      simpa using scanned
    · intro found
      simp [scan, found]
  have joined : input = enclose quote s ++ after ↔
      input.toList = quote :: double quote s.toList ++ quote :: after.toList := by
    rw [← String.toList_inj, String.toList_append, toList_enclose]
    simp
  rw [chars, scanChars_eq_some_iff, joined]

end Doubled
end Text

namespace Simulation

open Text.Doubled (CanFollow enclose scan scan_eq_some_iff)

/-! ## Quoting on a connection -/

/-- What a connection quotes: names of things, and values. -/
inductive Quotation where
  | identifier
  | literal
  deriving DecidableEq, Repr

namespace Quotation

def mark : Quotation → Char
  | identifier => '"'
  | literal => '\''

def op : Quotation → String → Connection.Op
  | identifier => .escapeIdentifier
  | literal => .escapeLiteral

end Quotation

namespace Bench

variable {b c : Bench} {r : Ref .connection} {s : String}

/-- Have a connection quote a text. -/
def quoted (b : Bench) (r : Ref .connection) : Quotation → String → Except Stop String × Bench
  | .identifier, s => b.perform r (.escapeIdentifier s : Connection.Op)
  | .literal, s => b.perform r (.escapeLiteral s : Connection.Op)

/-- A text is answered in its quotes, whatever has been done before. -/
theorem quoted_of_unscripted {q : Quotation} (free : b.Unscripted r (q.op s)) :
    b.quoted r q s = (.ok (enclose q.mark s), b.noted r (q.op s)) := by
  cases q with
  | identifier | literal => exact perform_of_run_ok rfl free rfl

theorem eq_enclose_of_quoted {q : Quotation} {out : String}
    (answered : b.quoted r q s = (.ok out, c)) : out = enclose q.mark s := by
  cases q with
  | identifier =>
    have performed : b.perform r (.escapeIdentifier s : Connection.Op) = (.ok out, c) := answered
    obtain ⟨-, -, ran⟩ := perform_eq_ok_iff.mp performed
    cases ran
    rfl
  | literal =>
    have performed : b.perform r (.escapeLiteral s : Connection.Op) = (.ok out, c) := answered
    obtain ⟨-, -, ran⟩ := perform_eq_ok_iff.mp performed
    cases ran
    rfl

/-- Unless a failure is scripted a connection answers a text in quotes; in any statement the token
ends where the answer ends, and is read as the text, if no quote follows; the text is read where
its quoted form is and nowhere else; and no other text has that form. -/
theorem quoting_unambiguous (q : Quotation) (free : b.Unscripted r (q.op s)) :
    ∃ out c, b.quoted r q s = (.ok out, c) ∧
      (∀ after, CanFollow q.mark after.toList → scan q.mark (out ++ after) = some (s, after)) ∧
      (∀ input after, scan q.mark input = some (s, after) → input = out ++ after) ∧
      ∀ (b' : Bench) (r' : Ref .connection) (s' : String) (c' : Bench),
        b'.quoted r' q s' = (.ok out, c') → s' = s := by
  have reads : ∀ after : String, CanFollow q.mark after.toList →
      scan q.mark (enclose q.mark s ++ after) = some (s, after) := by
    intro after follows
    exact scan_eq_some_iff.mpr ⟨rfl, follows⟩
  refine ⟨enclose q.mark s, _, quoted_of_unscripted free, reads, ?_, ?_⟩
  · intro input after found
    exact (scan_eq_some_iff.mp found).1
  · -- both texts are what the scanner reads in the one answer
    intro b' r' s' c' answered
    have ends : CanFollow q.mark "".toList := by simp [CanFollow]
    have again : scan q.mark (enclose q.mark s ++ "") = some (s', "") := by
      apply scan_eq_some_iff.mpr
      exact ⟨by rw [eq_enclose_of_quoted answered], ends⟩
    have same : (s', "") = (s, "") := Option.some.inj (again.symm.trans (reads "" ends))
    exact congrArg Prod.fst same

/-- A text that begins and ends with the quote, and has two of them in a row, before a comma. -/
theorem quoting_unambiguous_at_quotes :
    ∃ out c, (Scenario.ResourceSpec.place "main" (.connection 1) {}).2.quoted ⟨0⟩ .literal
        "'a''b'" = (.ok out, c) ∧
      scan '\'' (out ++ ", x") = some ("'a''b'", ", x") := by
  obtain ⟨out, c, answered, reads, -⟩ := quoting_unambiguous .literal
    (b := (Scenario.ResourceSpec.place "main" (.connection 1) {}).2) (r := ⟨0⟩) (s := "'a''b'") rfl
  refine ⟨out, c, answered, reads ", x" ?_⟩
  simp [CanFollow, Quotation.mark]

end Bench
end Simulation
end Cancelable
