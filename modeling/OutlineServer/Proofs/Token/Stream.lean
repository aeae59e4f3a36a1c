import OutlineServer.Proofs.Server.History
import OutlineServer.Proofs.Token.Layout

/-!
# The stream of numbers

The numbers of spans are read back by the rule of the editors: lines add up, and columns add up as
long as the line stays.  What comes back is the spans in order of position, each with the numbers of
its type and modifiers (`decodeFrom_encodeFrom`).

The spans of a text are in that order already, so their stream is never negative and gives back the
very tokens that are sent along with it (`tokens_sent_and_read_back`).
-/
namespace OutlineServer

structure SentToken where
  line : Int
  start : Int
  length : Int
  type : Int
  modifiers : Int
deriving DecidableEq

namespace SentToken

def position (token : SentToken) : Int × Int × Int := (token.line, token.start, token.length)

end SentToken

namespace Legend

/-- What is read from numbers that follow a token at this line and column. -/
def decodeFrom (line start : Int) : List Int → List SentToken
  | lines :: columns :: length :: type :: modifiers :: rest =>
    let newLine := line + lines
    let newStart := if lines = 0 then start + columns else columns
    ⟨newLine, newStart, length, type, modifiers⟩ :: decodeFrom newLine newStart rest
  | _ => []

def decode (numbers : List Int) : List SentToken := decodeFrom 0 0 numbers

def sent (legend : Legend) (span : TokenSpan) : SentToken where
  line := span.line
  start := span.start
  length := span.length
  type := legend.encodeType span.type
  modifiers := legend.encodeModifiers span.modifiers

/-- **Reading the stream of spans gives them back**, in the order in which they were written. -/
theorem decodeFrom_encodeFrom (legend : Legend) : ∀ (spans : List TokenSpan) (line start : Int),
    decodeFrom line start (legend.encodeFrom line start spans) = spans.map legend.sent
  | [], _, _ => rfl
  | span :: rest, line, start => by
    have hline : line + (span.line - line) = span.line := by omega
    have hstart : (if span.line - line = 0 then
        start + (if span.line - line = 0 then span.start - start else span.start)
        else (if span.line - line = 0 then span.start - start else span.start)) = span.start := by
      by_cases h : span.line - line = 0
      · simp only [h, if_true]
        omega
      · simp only [h, if_false]
    simp only [encodeFrom, decodeFrom, hline, hstart, List.map_cons]
    rw [decodeFrom_encodeFrom legend rest span.line span.start]
    rfl

theorem length_encodeFrom (legend : Legend) : ∀ (spans : List TokenSpan) (line start : Int),
    (legend.encodeFrom line start spans).length = 5 * spans.length
  | [], _, _ => rfl
  | span :: rest, line, start => by
    simp only [encodeFrom, List.length_cons]
    rw [length_encodeFrom legend rest span.line span.start]
    omega

theorem nonneg_encodeFrom (legend : Legend) : ∀ (spans : List TokenSpan) (line start : Int),
    (∀ span ∈ spans, line < span.line ∨ (line = span.line ∧ start ≤ span.start)) →
    spans.Pairwise (fun a b => a.line < b.line ∨ (a.line = b.line ∧ a.start < b.start)) →
    (∀ span ∈ spans, 0 ≤ span.start ∧ 0 ≤ span.length) →
    ∀ n ∈ legend.encodeFrom line start spans, 0 ≤ n
  | [], _, _, _, _, _ => by simp [encodeFrom]
  | span :: rest, line, start, hfrom, hordered, hpositive => by
    have hspan := hfrom span List.mem_cons_self
    have hsize := hpositive span List.mem_cons_self
    obtain ⟨hhead, hrest⟩ := List.pairwise_cons.1 hordered
    have ih := nonneg_encodeFrom legend rest span.line span.start
      (fun later hlater => (hhead later hlater).imp_right (fun h => ⟨h.1, Int.le_of_lt h.2⟩)) hrest
      (fun later hlater => hpositive later (List.mem_cons_of_mem _ hlater))
    simp only [encodeFrom, List.forall_mem_cons]
    refine ⟨by omega, ?_, hsize.2, Int.natCast_nonneg _, Int.natCast_nonneg _, ih⟩
    split <;> omega

theorem encode_of_laidOut {lines : List Text} {spans : List TokenSpan} (h : LaidOut lines spans)
    (legend : Legend) : legend.encode spans = legend.encodeFrom 0 0 spans := by
  unfold encode
  rw [List.mergeSort_of_pairwise]
  refine h.increasing.imp ?_
  intro a b hab
  unfold TokenSpan.notAfter
  rcases hab with hlt | ⟨heq, hlt⟩
  · simp [hlt]
  · simp [heq, Int.le_of_lt hlt]

theorem nonneg_encode {lines : List Text} {spans : List TokenSpan} (h : LaidOut lines spans)
    (legend : Legend) : ∀ n ∈ legend.encode spans, 0 ≤ n := by
  rw [encode_of_laidOut h]
  have hinside : ∀ span ∈ spans, 0 ≤ span.line ∧ 0 ≤ span.start ∧ 0 ≤ span.length := by
    intro span hspan
    obtain ⟨number, line, -, hline, hstart, hlength, -⟩ := h.inside span hspan
    exact ⟨by omega, hstart, hlength⟩
  refine legend.nonneg_encodeFrom spans 0 0 ?_ h.increasing (fun span hspan => (hinside span hspan).2)
  intro span hspan
  have := hinside span hspan
  omega

end Legend

/-! ## Answers -/

def Json.position? (token : Json) : Option (Int × Int × Int) := do
  let line ← (token.get? "line").bind Json.int?
  let start ← (token.get? "start_character").bind Json.int?
  let length ← (token.get? "length").bind Json.int?
  return (line, start, length)

theorem mapM_position?_toJson : ∀ spans : List TokenSpan,
    (spans.map TokenSpan.toJson).mapM Json.position?
      = some (spans.map (fun span => (span.line, span.start, span.length)))
  | [] => rfl
  | span :: rest => by
    have hspan : span.toJson.position? = some (span.line, span.start, span.length) := rfl
    rw [List.map_cons, List.mapM_cons, hspan, mapM_position?_toJson rest]
    rfl

theorem mapM_int?_int : ∀ numbers : List Int, (numbers.map Json.int).mapM Json.int? = some numbers
  | [] => rfl
  | n :: rest => by
    rw [List.map_cons, List.mapM_cons, mapM_int?_int rest]
    rfl

/-- The answer holds tokens and a stream of numbers that reads as the places of these tokens. -/
def StreamReadsAsTokens (result : Json) : Prop :=
  ∃ tokens data positions numbers, result.get? "tokens" = some (.arr tokens)
    ∧ tokens.mapM Json.position? = some positions ∧ result.get? "data" = some (.arr data)
    ∧ data.mapM Json.int? = some numbers
    ∧ (Legend.decode numbers).map SentToken.position = positions

theorem tokensResult_encoded (workspace : Workspace) (text : Text) :
    Tool.tokensResult workspace text true = .object [
      ("strategy", .str workspace.classifier.name),
      ("tokens", .arr ((workspace.tokens text).map TokenSpan.toJson)),
      ("data", .arr ((workspace.legend.encodeFrom 0 0 (workspace.tokens text)).map .int))] := by
  have hlaid : LaidOut text.lines (workspace.tokens text) := laidOut_classify _ text
  rw [← Legend.encode_of_laidOut hlaid]
  rfl

theorem streamReadsAsTokens_tokensResult (workspace : Workspace) (text : Text) :
    StreamReadsAsTokens (Tool.tokensResult workspace text true) := by
  rw [tokensResult_encoded]
  refine ⟨_, _, _, _, rfl, mapM_position?_toJson (workspace.tokens text), rfl,
    mapM_int?_int (workspace.legend.encodeFrom 0 0 (workspace.tokens text)), ?_⟩
  rw [Legend.decode, Legend.decodeFrom_encodeFrom, List.map_map]
  rfl

theorem receive_semanticTokens {s : Server} {r : Incoming} {arguments : Fields} {text : Text}
    (hcall : r.Calls "document.semantic_tokens" arguments)
    (htext : Keyed.get? "text" arguments = some (.str text))
    (hencoded : Keyed.get? "encoded" arguments = some (.bool true))
    (hok : (s.receive r).1.outcome.isOk = true) :
    (s.receive r).1.outcome.result = Tool.tokensResult s.workspace text true := by
  obtain ⟨s', -, hworkspace, hcarries, hdispatch⟩ := Server.receive_of_call (s := s) hcall
  obtain ⟨answer, hanswer⟩ := hdispatch hok
  have hresult := hcarries answer hanswer
  rw [show ("document.semantic_tokens" : Text) = Tool.semanticTokens.name from rfl,
    Server.dispatch_of_name, Tool.call_semanticTokens_eq_ok] at hanswer
  obtain ⟨given, wanted, hgiven, hwanted, -, -, rfl⟩ := hanswer
  have hgiven : given = text := by
    rw [htext] at hgiven
    cases hgiven
    rfl
  have hwanted : wanted = true := by
    rw [Tool.wantsNumbers, hencoded] at hwanted
    cases hwanted
    rfl
  subst hgiven hwanted
  rw [hworkspace] at hresult
  rcases hresult with hsuccess | ⟨-, hblocked⟩
  · rw [hsuccess]
    rfl
  · rw [hblocked] at hok
    cases hok

/-- **The spans of a text are in order, inside their lines and apart**, for either strategy.  So any
legend turns each into five numbers, none of them negative, in their own order, and the stream reads
as the spans.  An answer with the tokens of the text and their stream says the same twice. -/
theorem tokens_sent_and_read_back (strategy : TokenStrategy) (text : Text) :
    LaidOut text.lines (strategy.classify text)
    ∧ (∀ legend : Legend,
      (legend.encode (strategy.classify text)).length = 5 * (strategy.classify text).length
      ∧ (∀ n ∈ legend.encode (strategy.classify text), 0 ≤ n)
      ∧ Legend.decode (legend.encode (strategy.classify text))
        = (strategy.classify text).map legend.sent)
    ∧ ∀ (s : Server) (r : Incoming) (arguments : Fields),
      s.workspace.classifier.strategy = strategy →
      r.Calls "document.semantic_tokens" arguments →
      Keyed.get? "text" arguments = some (.str text) →
      Keyed.get? "encoded" arguments = some (.bool true) →
      (s.receive r).1.outcome.isOk = true →
      (s.receive r).1.outcome.result.get? "tokens"
          = some (.arr ((strategy.classify text).map TokenSpan.toJson))
        ∧ StreamReadsAsTokens (s.receive r).1.outcome.result := by
  have hlaid := laidOut_classify strategy text
  refine ⟨hlaid, fun legend => ⟨?_, legend.nonneg_encode hlaid, ?_⟩, ?_⟩
  · rw [Legend.encode_of_laidOut hlaid, Legend.length_encodeFrom]
  · rw [Legend.encode_of_laidOut hlaid, Legend.decode, Legend.decodeFrom_encodeFrom]
  · intro s r arguments hstrategy hcall htext hencoded hok
    have hresult := receive_semanticTokens hcall htext hencoded hok
    rw [hresult]
    refine ⟨?_, streamReadsAsTokens_tokensResult s.workspace text⟩
    rw [← hstrategy]
    rfl

def annotated : Server :=
  .start { Config.ofRoot .root with strategy := .bracketed } none ⟨0, 0⟩

def twoAnnotations : Json :=
  .object [("id", .str "a"), ("method", .str "document.semantic_tokens"),
    ("params", .object [("text", .str "[a][b]"), ("encoded", .bool true)])]

theorem isOk_twoAnnotations :
    (annotated.receive (.value twoAnnotations)).1.outcome.isOk = true := by
  have hdispatch : annotated.dispatch "document.semantic_tokens"
      [("encoded", .bool true), ("text", .str "[a][b]")]
        = .ok (Tool.tokensResult annotated.workspace "[a][b]" true, annotated.workspace) :=
    (annotated.dispatch_of_name .semanticTokens _).trans rfl
  have hfits : Response.fits annotated.config.limits.responseBytes (Response.success "a"
      (Tool.tokensResult annotated.workspace "[a][b]" true)).toJson = true := by
    rw [tokensResult_encoded]
    decide +kernel
  have hreceive : annotated.receive (.value twoAnnotations) = annotated.callTool "a"
      "document.semantic_tokens" [("encoded", .bool true), ("text", .str "[a][b]")] := rfl
  rw [hreceive, Server.callTool_of_ok hdispatch, Server.limitResponse_eq, if_pos hfits]
  rfl

theorem classify_twoAnnotations : TokenStrategy.bracketed.classify "[a][b]"
    = [{ line := 0, start := 1, length := 1, type := "a" },
      { line := 0, start := 4, length := 1, type := "b" }] := by
  cbv

/-- Two annotations side by side give an answer with two tokens and a stream that reads as them. -/
theorem tokens_of_two_annotations :
    (annotated.receive (.value twoAnnotations)).1.outcome.isOk = true
    ∧ (annotated.receive (.value twoAnnotations)).1.outcome.result.get? "tokens" = some (.arr [
      TokenSpan.toJson { line := 0, start := 1, length := 1, type := "a" },
      TokenSpan.toJson { line := 0, start := 4, length := 1, type := "b" }])
    ∧ StreamReadsAsTokens (annotated.receive (.value twoAnnotations)).1.outcome.result := by
  obtain ⟨-, -, hanswer⟩ := tokens_sent_and_read_back .bracketed "[a][b]"
  obtain ⟨htokens, hstream⟩ := hanswer annotated (.value twoAnnotations) _ rfl rfl rfl rfl
    isOk_twoAnnotations
  rw [classify_twoAnnotations] at htokens
  exact ⟨isOk_twoAnnotations, htokens, hstream⟩

end OutlineServer
