/-
# Tokens on one line

Tokens that are joined, with a space between any two, are read back as they were
if their operands are variables and numbers, and not otherwise (`scan_join_iff`):
the space keeps every operand from the next and every minus sign from a digit, and
no text has an operand of another form.

So the line that joins the tokens of a text is the same text without what does not
matter (`normalize`): it is accepted, it has the same tokens and everything that
is made of them, and it is its own line.
-/
import ArithTree.Proofs.Bracketed
import ArithTree.Proofs.Scan.Spacing

namespace ArithTree

open Token (Readable Scans)

/-! ## The line -/

namespace Token

theorem toList_join_cons (token next : Token) (tokens : List Token) :
    (join (token :: next :: tokens)).toList =
      token.text.toList ++ ' ' :: (join (next :: tokens)).toList := by
  simp [join_cons]

theorem scans_join : ∀ {tokens : List Token}, (∀ token ∈ tokens, Readable token) →
    Scans (join tokens).toList tokens
  | [], _ => .nil
  | [token], h => by
      rw [join_singleton]
      exact (h token List.mem_cons_self).scans
  | token :: next :: tokens, h => by
      obtain ⟨htoken, hrest⟩ := List.forall_mem_cons.mp h
      have hnext : Scans (' ' :: (join (next :: tokens)).toList) (next :: tokens) :=
        .blank rfl (scans_join hrest)
      rw [toList_join_cons]
      exact htoken.scans.append hnext (apart_cons (by decide))

theorem Readable.clean : ∀ {token : Token}, Readable token → Clean token.text.toList
  | .operand _, h => .of_isAlphanum (Plain.isAlphanum h)
  | .operator op, _ => by
      rw [toList_text_operator]
      exact .symbol op
  | .paren .opening, _ | .paren .closing, _ => .cons (by decide) (by decide) .nil

/-- A minus sign has a space or nothing behind it. -/
theorem clean_join : ∀ {tokens : List Token}, (∀ token ∈ tokens, Readable token) →
    Clean (join tokens).toList
  | [], _ => .nil
  | [token], h => by
      rw [join_singleton]
      exact (h token List.mem_cons_self).clean
  | token :: next :: tokens, h => by
      obtain ⟨htoken, hrest⟩ := List.forall_mem_cons.mp h
      rw [toList_join_cons]
      exact htoken.clean.append (by decide) (.cons (by decide) (by decide) (clean_join hrest))

theorem Scans.readable {text : List Char} {tokens : List Token} (h : Scans text tokens) :
    ∀ token ∈ tokens, Readable token
  | .operand w, hw => h.plain w hw
  | .operator _, _ | .paren _, _ => trivial

/-! ## Reading it back -/

theorem scan_join_iff {tokens : List Token} :
    scan (join tokens) = .ok tokens ↔ ∀ token ∈ tokens, Readable token := by
  constructor
  · intro h
    exact (scanFrom_eq_ok_iff.mp h).readable
  · intro h
    exact scanFrom_eq_ok_iff.mpr (scans_join h)

theorem lex_join_iff {tokens : List Token} :
    lex (join tokens) = .ok tokens ↔ tokens ≠ [] ∧ ∀ token ∈ tokens, Readable token := by
  rw [lex_eq_ok_iff, scan_join_iff]
  constructor
  · rintro ⟨_, hreadable, hne⟩
    exact ⟨hne, hreadable⟩
  · rintro ⟨hne, hreadable⟩
    exact ⟨Source.check_eq_ok_iff.mpr (clean_join hreadable), hreadable, hne⟩

end Token

/-! ## The normal form of a text -/

def normalize (source : String) : Except CompileError String :=
  (lex source).map Token.join

theorem normalize_of_lex {source : String} {tokens : List Token} (h : lex source = .ok tokens) :
    normalize source = .ok (Token.join tokens) := by
  rw [normalize, h]
  rfl

theorem readable_of_lex {source : String} {tokens : List Token} (h : lex source = .ok tokens) :
    tokens ≠ [] ∧ ∀ token ∈ tokens, Readable token := by
  obtain ⟨_, hscan, hne⟩ := lex_eq_ok_iff.mp h
  exact ⟨hne, (Token.scanFrom_eq_ok_iff.mp hscan).readable⟩

theorem compile_congr {α : Type} [Coordinate α] (options : Layout.Options α)
    {source other : String} (h : lex source = lex other) :
    compile options source = compile options other := by
  unfold compile parse
  rw [h]

/-- Joined tokens are read back exactly if their operands are variables and
numbers.  In particular those of an accepted text are, so joining them gives a
text that means the same and that joining does not change. -/
theorem lex_join (tokens : List Token) :
    (Token.scan (Token.join tokens) = .ok tokens ↔ ∀ token ∈ tokens, Readable token) ∧
    (lex (Token.join tokens) = .ok tokens ↔
      tokens ≠ [] ∧ ∀ token ∈ tokens, Readable token) ∧
    ∀ source, lex source = .ok tokens →
      normalize source = .ok (Token.join tokens) ∧
      Source.check (Token.join tokens) = .ok () ∧
      lex (Token.join tokens) = lex source ∧
      (∀ (α : Type) [Coordinate α] (options : Layout.Options α),
        compile options (Token.join tokens) = compile options source) ∧
      normalize (Token.join tokens) = .ok (Token.join tokens) := by
  refine ⟨Token.scan_join_iff, Token.lex_join_iff, ?_⟩
  intro source hlex
  have hjoin : lex (Token.join tokens) = .ok tokens :=
    Token.lex_join_iff.mpr (readable_of_lex hlex)
  have hsame : lex (Token.join tokens) = lex source := hjoin.trans hlex.symm
  exact ⟨normalize_of_lex hlex, (lex_eq_ok_iff.mp hjoin).1, hsame,
    fun _ _ options => compile_congr options hsame, normalize_of_lex hjoin⟩

end ArithTree
