import LayoutLexer.Proofs.JsonReader
import LayoutLexer.Proofs.ListingDecoding

namespace LayoutLexer

/-!
# Reading JSON reports back

A reader finds in a JSON report one object for each token, with its five members.
Numbers, texts and names of kinds can be read off them, so a JSON report shows
all there is to a token, and a listing of the same source shows no more.
-/

namespace Text.Json.Value

/-- The number that a value is, if it is a natural one. -/
def natural? : Value → Option Nat
  | .number value =>
      if value = value.num.toNat then
        some value.num.toNat
      else
        none
  | _ => none

/-- The text that a value is. -/
def text? : Value → Option String
  | .string text => some text
  | _ => none

/-- The first member of an object with a name. -/
def member? (name : String) : Value → Option Value
  | .object members => members.lookup name
  | _ => none

theorem natural?_ofField
    (number : Nat) :
    (ofField (.number number)).natural? = some number := by
  simp [ofField, natural?]

theorem text?_ofField
    (text : String) :
    (ofField (.text text)).text? = some text :=
  rfl

end Text.Json.Value

open Text.Json (Value)

/-- The token that an object shows. -/
def Token.ofValue? (value : Value) : Option Token := do
  let kind ← value.member? "kind" >>= Value.text? >>= TokenKind.ofName?
  let text ← value.member? "text" >>= Value.text?
  let line ← value.member? "line" >>= Value.natural?
  let start ← value.member? "start" >>= Value.natural?
  let stop ← value.member? "end" >>= Value.natural?
  some ⟨kind, text, line, ⟨start, stop⟩⟩

/-- The tokens that a JSON report shows. -/
def readTokens (report : String) : Option (List Token) :=
  match Text.Json.read report with
  | some (.array objects) => objects.mapM Token.ofValue?
  | _ => none

/-- A token is read back from its record. -/
theorem Token.ofValue?_tokenRecord
    (token : Token) :
    Token.ofValue? (.ofRecord (Report.tokenRecord token)) = some token := by
  simp [ofValue?, Report.tokenRecord, Value.ofRecord, Value.member?,
    List.lookup_cons, Value.natural?_ofField, Value.text?_ofField,
    TokenKind.ofName?_name]

/-- The tokens are read back from a JSON report. -/
theorem readTokens_json
    (tokens : List Token) :
    readTokens (Report.json tokens) = some tokens := by
  have records :
      Token.ofValue? ∘ Value.ofRecord ∘ Report.tokenRecord =
        fun token => pure (id token) :=
    funext Token.ofValue?_tokenRecord
  rw [readTokens, Report.json, Text.Json.read_array]
  simp only [List.map_map, List.mapM_map, records, List.mapM_pure, List.map_id]
  rfl

/--
A JSON report is an array of one object for each token, with five members each,
and all of a token can be read off its object. There is a JSON report on a source
if there is a listing of it: the tokens of the source can be read off the report,
and their lines, kinds and texts are those that can be read off the listing.
-/
theorem json_determines_tokens :
    (∀ tokens : List Token,
      Text.Json.read (Report.json tokens) =
          some (.array (tokens.map fun token =>
            .object
              [("end", .number token.span.stop),
                ("kind", .string token.kind.name),
                ("line", .number token.line),
                ("start", .number token.span.start),
                ("text", .string token.text)])) ∧
        readTokens (Report.json tokens) = some tokens) ∧
    ∀ name source : String,
      ((∃ report, (Report.make .json name source).result = .ok report) ↔
        ∃ listing, (Report.make .listing name source).result = .ok listing) ∧
      ∀ report,
        (Report.make .json name source).result = .ok report →
          ∃ tokens listing,
            lex source = .ok tokens ∧
              readTokens report = some tokens ∧
              (Report.make .listing name source).result = .ok listing ∧
              Listed.readListing listing = some (tokens.map Token.listed) := by
  have listed :
      ∀ {name source : String} {tokens : List Token},
        lex source = .ok tokens →
          (Report.make .listing name source).result =
            .ok (Report.listing tokens) := by
    intro name source tokens lexed
    exact (Report.make_tokens_eq_ok_iff false).mpr ⟨tokens, lexed, rfl⟩
  refine ⟨?_, ?_⟩
  · intro tokens
    refine ⟨?_, readTokens_json tokens⟩
    rw [Report.json, Text.Json.read_array, List.map_map]
    rfl
  · intro name source
    refine ⟨⟨?_, ?_⟩, ?_⟩
    · rintro ⟨report, made⟩
      obtain ⟨tokens, lexed, -⟩ := (Report.make_tokens_eq_ok_iff true).mp made
      exact ⟨_, listed lexed⟩
    · rintro ⟨listing, made⟩
      obtain ⟨tokens, lexed, -⟩ := (Report.make_tokens_eq_ok_iff false).mp made
      exact ⟨_, (Report.make_tokens_eq_ok_iff true).mpr ⟨tokens, lexed, rfl⟩⟩
    · intro report made
      obtain ⟨tokens, lexed, shown⟩ := (Report.make_tokens_eq_ok_iff true).mp made
      subst shown
      exact ⟨tokens, _, lexed, readTokens_json tokens, listed lexed,
        Listed.readListing_listing tokens⟩

end LayoutLexer
