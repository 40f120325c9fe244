import SetterReport.Text.Basic

/-!
# Terminal control sequences

A control sequence starts with an escape character and takes no room on a
terminal. What may follow the escape is a regular language, recognised here by
a small machine; of the beginnings of a text that the machine accepts the
longest one is the sequence. An escape that opens no sequence is an ordinary
character.
-/

namespace SetterReport.Text.Terminal

/-- The two characters that can open a control sequence. -/
def opens (c : Char) : Bool :=
  c == '\x1b' || c == '\u009b'

/-- How far a control sequence has been read. -/
inductive Progress
  /-- Directly after the opening character. -/
  | opened
  /-- After a parenthesis, which selects a character set. -/
  | charset
  /-- Among the characters that introduce the parameters. -/
  | introduced
  /-- In a parameter, with so many digits read. -/
  | digits (count : Nat)
  /-- After a semicolon between parameters. -/
  | separated
  /-- After the last character. -/
  | closed
deriving DecidableEq

namespace Progress

/-- Whether a sequence may end here. -/
def isComplete : Progress → Bool
  | digits _ => true
  | closed => true
  | _ => false

/-- The number of digits that a parameter may have. -/
def mostDigits : Nat := 5

/-- The letters and signs that close a sequence. -/
def closes (c : Char) : Bool :=
  ('A' ≤ c && c ≤ 'P') || ('f' ≤ c && c ≤ 'n') || "RZcqry=><".toList.contains c

/-- Whether a closing character may come here. -/
def mayClose : Progress → Bool
  | digits n => n < mostDigits
  | closed => false
  | _ => true

/-- The progress after one more digit. -/
def afterDigit (c : Char) : Progress → Option Progress
  | opened => some (digits 1)
  | charset => if c ≤ '2' then some closed else some (digits 1)
  | introduced => some (digits 1)
  | digits n => if n < mostDigits then some (digits (n + 1)) else none
  | separated => some (digits 1)
  | closed => none

/-- The progress after one more character; none if no sequence goes on like that. -/
def after (p : Progress) (c : Char) : Option Progress :=
  if c.isDigit then afterDigit c p
  else if closes c then if p.mayClose then some closed else none
  else
    match p, c with
    | opened, '(' | opened, ')' => some charset
    | opened, '[' | opened, '#' | opened, '?' | opened, ';' => some introduced
    | charset, '(' | charset, ')' | introduced, '(' | introduced, ')' => some introduced
    | charset, '[' | charset, '#' | charset, '?' | charset, ';' => some introduced
    | introduced, '[' | introduced, '#' | introduced, '?' | introduced, ';' => some introduced
    | digits n, ';' => if n < mostDigits then some separated else none
    | separated, ';' => some separated
    | _, _ => none

end Progress

/-- The length of the longest complete sequence from here on; zero if there is none. -/
def longest (p : Progress) : Text → Nat
  | [] => 0
  | c :: rest =>
    match p.after c with
    | none => 0
    | some q =>
      match longest q rest with
      | 0 => if q.isComplete then 1 else 0
      | n + 1 => n + 2

/-- Drops `skip` characters, and from there on all control sequences. -/
def stripFrom : (skip : Nat) → Text → Text
  | _, [] => []
  | skip + 1, _ :: rest => stripFrom skip rest
  | 0, c :: rest =>
    if opens c then
      match longest .opened rest with
      | 0 => c :: stripFrom 0 rest
      | n + 1 => stripFrom (n + 1) rest
    else c :: stripFrom 0 rest

/-- The text without its control sequences. -/
def strip (t : Text) : Text :=
  stripFrom 0 t

end SetterReport.Text.Terminal
