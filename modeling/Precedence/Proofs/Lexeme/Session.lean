import Precedence.Proofs.Lexeme.Interning

/-!
# Sessions with one lexicon

Lines, sources at once and sources on demand can be read with one lexicon, in any order. After any
calls, those that fail included, the lexicon is the one that the tokens of the fragments classified
so far lead to: it holds each of them once, where it first occurred, and its index has the place of
each. A lexeme that some call has given has the token of its text and points at the one entry that
holds it, so lexemes share an entry exactly if they have the same token.

One call has the tokens of the lines that it reads handed out, and the lexemes that it gives or
leaves pending hold tokens among those, or were pending before it. All the rest follows by induction
on the calls.
-/

namespace Precedence

open Text (splitLines)
open Lexicon (lineFails lineTokens throughFirst)
open SourceSupply (endsPull handedLexeme?)

/-! ## One call -/

/-- A call on one lexicon. -/
inductive Call where
  /-- Reads one line with its number. -/
  | readLine (line : Nat) (text : List Char)
  /-- Reads a source at once. -/
  | readSource (source : String)
  /-- Opens the supply of a source. -/
  | openSource (source endMarker : String)
  /-- Pulls from the supply opened last. -/
  | pull
  deriving DecidableEq

namespace Call

/-- The lexemes that a call gives, none if it fails, and the supply opened last after it. The
lexicon that all calls share is that of the supply. -/
def run (supply : SourceSupply) : Call → List Lexeme × SourceSupply
  | readLine line text =>
    let read := supply.lexicon.readLine line text
    (read.1.toOption.getD [], { supply with lexicon := read.2 })
  | readSource source =>
    let read := supply.lexicon.readSource source
    (read.1.toOption.getD [], { supply with lexicon := read.2 })
  | openSource source endMarker => ([], .ofSource source supply.lexicon endMarker)
  | pull =>
    let pulled := supply.next
    ((handedLexeme? pulled.1).toList, pulled.2)

/-- The lines that a call reads, the one that it fails at included. -/
def linesRead (supply : SourceSupply) : Call → List (List Char)
  | readLine _ text => [text]
  | readSource source => throughFirst lineFails (splitLines source.toList)
  | openSource _ _ => []
  | pull => if supply.pending = [] then throughFirst endsPull supply.lines else []

/-- The tokens of the fragments that a call classifies. -/
def tokensRead (supply : SourceSupply) (call : Call) : List Token :=
  (call.linesRead supply).flatMap lineTokens

/-- A call enters the tokens that it reads. The lexemes that it gives or leaves pending were pending
before it, or have the tokens of their texts as handed out for what it reads. -/
theorem run_enters (supply : SourceSupply) (call : Call) :
    let entered := supply.lexicon.internAll (call.tokensRead supply)
    (call.run supply).2.lexicon = entered.2 ∧
      ∀ lexeme ∈ (call.run supply).1 ++ (call.run supply).2.pending,
        lexeme ∈ supply.pending ∨ lexeme.IsHandedFrom entered.1 := by
  cases call with
  | readLine line text =>
    have isLine : (Call.readLine line text).tokensRead supply = lineTokens text :=
      List.flatMap_singleton lineTokens text
    obtain ⟨sameLexicon, handed⟩ := supply.lexicon.readLine_enters line text
    rw [isLine]
    exact ⟨sameLexicon, fun lexeme held =>
      (List.mem_append.mp held).symm.imp_right (handed lexeme)⟩
  | readSource source =>
    obtain ⟨sameLexicon, handed⟩ := supply.lexicon.readSource_enters source
    exact ⟨sameLexicon, fun lexeme held =>
      (List.mem_append.mp held).symm.imp_right (handed lexeme)⟩
  | openSource source endMarker =>
    refine ⟨rfl, fun lexeme held => ?_⟩
    change lexeme ∈ [] at held
    cases held
  | pull => exact supply.next_enters

/-- Every token that a call reads has a category. -/
theorem isUncategorized_of_mem_tokensRead {supply : SourceSupply} {call : Call} {token : Token}
    (held : token ∈ call.tokensRead supply) : token.isUncategorized = false := by
  obtain ⟨text, _, among⟩ := List.mem_flatMap.mp held
  exact Lexicon.isUncategorized_of_mem_fragmentTokens among

end Call

/-! ## Any number of calls -/

/-- Where some calls have led, and what they have read and given. -/
structure Session where
  /-- The supply opened last, with the lexicon that all calls share. -/
  supply : SourceSupply
  /-- The tokens of the fragments classified so far, in order. -/
  classified : List Token
  /-- The lexemes that the calls have given. -/
  given : List Lexeme

namespace Session

/-- The session before the first call: its lexicon has met no token, and its supply is empty. -/
def start : Session := ⟨.ofSource "" .empty "", [], []⟩

/-- The session after one more call. -/
def call (session : Session) (next : Call) : Session :=
  let after := next.run session.supply
  ⟨after.2, session.classified ++ next.tokensRead session.supply, session.given ++ after.1⟩

/-- The session after some calls. -/
def ofCalls (calls : List Call) : Session :=
  calls.foldl call start

/-- The lexicon after the calls. -/
def lexicon (session : Session) : Lexicon :=
  session.supply.lexicon

/-- What holds of a session after any calls. -/
structure Consistent (session : Session) : Prop where
  /-- The tokens classified have been entered, and no others. -/
  lexicon : session.lexicon = (Lexicon.empty.internAll session.classified).2
  /-- The lexemes given and pending have the tokens of their texts, as handed out for the fragments
  classified. -/
  handed : ∀ lexeme ∈ session.given ++ session.supply.pending,
    lexeme.IsHandedFrom (Lexicon.empty.internAll session.classified).1
  /-- The tokens classified have a category. -/
  categorized : ∀ token ∈ session.classified, token.isUncategorized = false

/-- A session is consistent before the first call. -/
theorem consistent_start : start.Consistent :=
  ⟨rfl, fun _ held => (List.not_mem_nil held).elim, fun _ held => (List.not_mem_nil held).elim⟩

/-- One more call leaves a session consistent. -/
theorem Consistent.call {session : Session} (consistent : session.Consistent) (next : Call) :
    (session.call next).Consistent := by
  obtain ⟨enters, among⟩ := next.run_enters session.supply
  have before : session.supply.lexicon = (Lexicon.empty.internAll session.classified).2 :=
    consistent.lexicon
  have inParts := Lexicon.empty.internAll_append session.classified
    (next.tokensRead session.supply)
  rw [← before] at inParts
  refine ⟨?_, fun lexeme held => ?_, fun token held => ?_⟩
  · exact enters.trans (congrArg Prod.snd inParts).symm
  · have split : lexeme ∈ session.given ++ ((next.run session.supply).1 ++
        (next.run session.supply).2.pending) := by
      rw [← List.append_assoc]
      exact held
    show lexeme.IsHandedFrom
      (Lexicon.empty.internAll (session.classified ++ next.tokensRead session.supply)).1
    rw [inParts]
    rcases List.mem_append.mp split with given | new
    · exact (consistent.handed lexeme (List.mem_append_left _ given)).append_left _
    · rcases among lexeme new with waited | handed
      · exact (consistent.handed lexeme (List.mem_append_right _ waited)).append_left _
      · exact handed.append_right _
  · rcases List.mem_append.mp held with earlier | new
    · exact consistent.categorized token earlier
    · exact Call.isUncategorized_of_mem_tokensRead new

/-- A session is consistent after any calls. -/
theorem consistent_ofCalls (calls : List Call) : (ofCalls calls).Consistent := by
  suffices fromAny : ∀ session : Session, session.Consistent →
      (calls.foldl call session).Consistent from fromAny start consistent_start
  induction calls with
  | nil => exact fun session consistent => consistent
  | cons next calls ih => exact fun session consistent => ih _ (consistent.call next)

variable {session : Session}

/-- The index of a consistent session has the place of each token met. -/
theorem Consistent.indexed (consistent : session.Consistent) : session.lexicon.Indexed := by
  rw [consistent.lexicon]
  exact Lexicon.indexed_empty.internAll session.classified

/-- The tokens met are those classified, in the order of first occurrence. -/
theorem Consistent.tokens_eq (consistent : session.Consistent) :
    session.lexicon.tokens = distinct session.classified := by
  rw [consistent.lexicon, Lexicon.indexed_empty.tokens_internAll]
  rfl

/-- One more call keeps the tokens met before it where they are. -/
theorem tokens_prefix_call (session : Session) (next : Call) :
    session.lexicon.tokens <+: (session.call next).lexicon.tokens := by
  have enters : (session.call next).lexicon =
      (session.lexicon.internAll (next.tokensRead session.supply)).2 :=
    (next.run_enters session.supply).1
  rw [enters]
  exact Lexicon.tokens_prefix_internAll _ _

/-- A lexeme that has been given points at the place of its token. -/
theorem Consistent.entry_of_given (consistent : session.Consistent) {lexeme : Lexeme}
    (given : lexeme ∈ session.given) :
    ∃ place, lexeme.shared.entry = some place ∧
      ∀ other, session.lexicon.tokens[other]? = some lexeme.token ↔ other = place := by
  have handed := (consistent.handed lexeme (List.mem_append_left _ given)).2
  obtain ⟨place, isEntry, stands⟩ := Lexicon.indexed_empty.entry_of_mem_internAll handed
  rw [← consistent.lexicon] at stands
  refine ⟨place, isEntry, fun other => ?_⟩
  rw [← consistent.indexed lexeme.token other, Lexeme.token, stands, Option.some.injEq, eq_comm]

/-- Lexemes that have been given point at the same entry exactly if they have the same token. -/
theorem Consistent.entry_eq_iff (consistent : session.Consistent) {first second : Lexeme}
    (given : first ∈ session.given) (alsoGiven : second ∈ session.given) :
    first.shared.entry = second.shared.entry ↔ first.token = second.token := by
  obtain ⟨place, isEntry, stands⟩ := consistent.entry_of_given given
  obtain ⟨other, isOther, alsoStands⟩ := consistent.entry_of_given alsoGiven
  rw [isEntry, isOther, Option.some.injEq]
  constructor
  · rintro rfl
    have held := (stands place).mpr rfl
    rw [(alsoStands place).mpr rfl] at held
    exact (Option.some.inj held).symm
  · intro same
    rw [← alsoStands place, ← same, stands place]

/-- After any calls with one lexicon, those that fail included: the tokens met are pairwise distinct
and have a category; the index maps each to its place and nothing else; one more call extends them;
they stand in the order in which they first occur among the fragments classified, and the lexicon is
the one that entering those leads to. Every lexeme given has the token of its text, and points at
the only place where that token stands; and two lexemes given point at the same place exactly if
they have the same token. -/
theorem interns_each_token_once (calls : List Call) :
    let session := ofCalls calls
    let tokens := session.lexicon.tokens
    tokens.Nodup ∧ (∀ token ∈ tokens, token.isUncategorized = false) ∧
      (∀ token place, session.lexicon.position? token = some place ↔ tokens[place]? = some token) ∧
      (∀ next, tokens <+: (session.call next).lexicon.tokens) ∧
      tokens = distinct session.classified ∧
      session.lexicon = (Lexicon.empty.internAll session.classified).2 ∧
      (∀ lexeme ∈ session.given, lexeme.IsClassified ∧
        ∃ place, lexeme.shared.entry = some place ∧
          ∀ other, tokens[other]? = some lexeme.token ↔ other = place) ∧
      ∀ first ∈ session.given, ∀ second ∈ session.given,
        (first.shared.entry = second.shared.entry ↔ first.token = second.token) := by
  intro session tokens
  have consistent : session.Consistent := consistent_ofCalls calls
  have isDistinct : tokens = distinct session.classified := consistent.tokens_eq
  have nodup : tokens.Nodup := isDistinct ▸ nodup_distinct _
  have categorized : ∀ token ∈ tokens, token.isUncategorized = false := by
    intro token held
    rw [isDistinct, mem_distinct] at held
    exact consistent.categorized token held
  refine ⟨nodup, categorized, consistent.indexed, session.tokens_prefix_call, isDistinct,
    consistent.lexicon, fun lexeme given => ?_, fun first given second alsoGiven => ?_⟩
  · have handed := consistent.handed lexeme (List.mem_append_left _ given)
    exact ⟨handed.1, consistent.entry_of_given given⟩
  · exact consistent.entry_eq_iff given alsoGiven

/-- A line that fails enters a name and an assignment sign. A source on demand with a line that
fails gives two names from the place of the first one, and a semicolon from a new place. -/
theorem interns_each_token_once_past_failures :
    let calls := [.readLine 3 "x = y @ 1;".toList, .openSource "a;\n@\nb" "$", .pull, .pull, .pull,
      .pull, .readSource "return\n2.5 @"]
    let session := ofCalls calls
    session.lexicon.tokens.map Token.kind = ["id", "=", ";", "return", "num"] ∧
      session.given.map (fun lexeme => (lexeme.text, lexeme.shared.entry)) =
        [("a", some 0), (";", some 2), ("b", some 0)] ∧
      ∃ first ∈ session.given, ∃ second ∈ session.given, first.text = "a" ∧ second.text = "b" ∧
        first.IsClassified ∧
        (∃ place, first.shared.entry = some place ∧
          ∀ other, session.lexicon.tokens[other]? = some first.token ↔ other = place) ∧
        (first.shared.entry = second.shared.entry ↔ first.token = second.token) := by
  intro calls session
  let name : SharedToken := ⟨⟨.identifier, "id"⟩, some 0⟩
  have given : session.given =
      [⟨"a", 0, 0, name⟩, ⟨";", 0, 1, ⟨⟨.special, ";"⟩, some 2⟩⟩, ⟨"b", 2, 0, name⟩] := by
    decide +kernel
  obtain ⟨_, _, _, _, _, _, points, shared⟩ := interns_each_token_once calls
  have isFirst : ⟨"a", 0, 0, name⟩ ∈ session.given := by simp [given]
  have isLast : ⟨"b", 2, 0, name⟩ ∈ session.given := by simp [given]
  obtain ⟨classified, isEntry⟩ := points _ isFirst
  exact ⟨by decide +kernel, by rw [given]; rfl, _, isFirst, _, isLast, rfl, rfl, classified,
    isEntry, shared _ isFirst _ isLast⟩

end Session

end Precedence
