namespace LayoutLexer.Text

/-!
# Words that resemble each other

Two words are compared by their common characters. Characters match when they
are equal and their positions are not further apart than half the longer word;
each is matched once, in the order of the first word. The similarity of two
words is the mean of three ratios: the matches to each word's length, and the
matches that stand in the same order to all matches. The comparison with a bound
is cleared of fractions, so it is exact.
-/

/-- How far apart two matching characters may stand. -/
def matchWindow (first second : List Char) : Nat :=
  max first.length second.length / 2 - 1

/-- The first free position in a word that matches a character at `index`. -/
def partner?
    (window : Nat)
    (word : List Char)
    (taken : List Nat)
    (index : Nat)
    (c : Char) :
    Option Nat :=
  (List.range word.length).find? fun position =>
    index ≤ position + window && position ≤ index + window &&
      word[position]? == some c && !taken.contains position

/--
Match the characters of a word, from `index` on, with free positions of another.
Each match is a character and the position it is matched with.
-/
def matchesFrom
    (window : Nat)
    (word : List Char)
    (taken : List Nat)
    (index : Nat) :
    List Char → List (Char × Nat)
  | [] =>
      []
  | c :: rest =>
      match partner? window word taken index c with
      | some position =>
          (c, position) ::
            matchesFrom window word (position :: taken) (index + 1) rest
      | none =>
          matchesFrom window word taken (index + 1) rest

/-- The characters of a word at some of its positions, in order. -/
def charactersAt (word : List Char) (positions : List Nat) : List Char :=
  ((List.range word.length).filter positions.contains).filterMap fun position =>
    word[position]?

/-- The number of places where two words differ. -/
def differences (first second : List Char) : Nat :=
  (first.zip second).countP fun pair => pair.1 != pair.2

/--
Whether the similarity of two words is at least seven tenths. With `m` matches,
of which `t` pairs are exchanged, among `a` and `b` characters this asks that
`m / a + m / b + (m - t) / m` is at least `21 / 10`.
-/
def resembles (first second : String) : Bool :=
  let a := first.length
  let b := second.length
  let common :=
    matchesFrom (matchWindow first.toList second.toList) second.toList [] 0
      first.toList
  let m := common.length
  let t :=
    differences (common.map Prod.fst)
      (charactersAt second.toList (common.map Prod.snd)) / 2
  if m = 0 then
    a == 0 && b == 0
  else
    21 * (m * a * b) ≤ 10 * (m * m * b + m * m * a + (m - t) * a * b)

end LayoutLexer.Text
