/-
# Tokens without their texts

The pattern of a token is its kind and, for an operator, how strongly it binds:
an operand without its text, one sign for sums and one for products.  The
conversion to postfix order looks at nothing else.  It makes of the patterns
what it makes of the tokens, with the same fault or with the pattern of the
sequence (`ofTokens_pattern`), and it puts them out in the same order.

The order is said by places (`order`), which tell two operators with the same
sign apart where the sequence does not.  It is defined by release points and not
by the stack, and a release point depends on patterns alone: on parentheses, on
groups, and on which operator binds stronger (`order_pattern`).
-/
import ArithTree.Proofs.Postfix.Release

namespace ArithTree

/-! ## Patterns -/

/-- A sign that binds as strongly as the operator, the same for all of its strength. -/
def Operator.pattern : Operator → Operator
  | .add | .sub => .add
  | .mul | .div => .mul

@[simp] theorem Operator.precedence_pattern (op : Operator) :
    op.pattern.precedence = op.precedence := by
  cases op <;> rfl

theorem Operator.pattern_eq_iff {op op' : Operator} :
    op.pattern = op'.pattern ↔ op.precedence = op'.precedence := by
  cases op <;> cases op' <;> decide

/-- The token without its text: an operand, an operator of its strength, or the parenthesis. -/
def Token.pattern : Token → Token
  | .operand _ => .operand ""
  | .operator op => .operator op.pattern
  | .paren side => .paren side

@[simp] theorem Token.paren?_pattern (token : Token) : token.pattern.paren? = token.paren? := by
  cases token with
  | operand _ | operator _ | paren _ => rfl

theorem Token.pattern_eq_paren_iff {token : Token} {side : Paren} :
    token.pattern = .paren side ↔ token = .paren side := by
  cases token with
  | operand _ | operator _ => exact ⟨fun h => (nomatch h), fun h => (nomatch h)⟩
  | paren _ => exact Iff.rfl

namespace Postfix

open Token

/-! ## One step and a run -/

def Pending.pattern : Pending → Pending
  | .operator op => .operator op.pattern
  | .opening index => .opening index

def State.pattern (s : State) : State :=
  ⟨s.output.map Token.pattern, s.stack.map Pending.pattern⟩

theorem release_pattern (bound : Nat) : ∀ stack : List Pending,
    release bound (stack.map Pending.pattern) =
      ((release bound stack).1.map Token.pattern, (release bound stack).2.map Pending.pattern)
  | [] => rfl
  | .opening _ :: _ => rfl
  | .operator op :: rest => by
      have ih := release_pattern bound rest
      simp only [List.map_cons, Pending.pattern, release, Operator.precedence_pattern]
      split
      · rw [ih]
        rfl
      · rfl

theorem step_pattern (s : State) (index : Nat) (token : Token) :
    s.pattern.step index token.pattern = (s.step index token).map State.pattern := by
  obtain ⟨out, stack⟩ := s
  cases token with
  | operand text => simp [State.step, State.pattern, Token.pattern, Except.map]
  | operator op =>
      simp [State.step, State.pattern, Token.pattern, release_pattern, Pending.pattern, Except.map]
  | paren side =>
      cases side with
      | opening => rfl
      | closing =>
          simp only [State.step, State.pattern, Token.pattern, releaseGroup, release_pattern]
          obtain ⟨released, remaining⟩ := release 0 stack
          -- what the group rests on is the same for the patterns: an open parenthesis or not
          cases remaining with
          | nil => rfl
          | cons top below =>
              cases top with
              | operator _ => rfl
              | opening _ => simp [Pending.pattern, Except.map, State.pattern]

theorem run_pattern : ∀ (tokens : List Token) (s : State) (index : Nat),
    s.pattern.run index (tokens.map Token.pattern) = (s.run index tokens).map State.pattern
  | [], _, _ => rfl
  | token :: tokens, s, index => by
      rw [List.map_cons, run_cons, run_cons, step_pattern]
      cases s.step index token with
      | error e => rfl
      | ok s => exact run_pattern tokens s (index + 1)

theorem finish_pattern (s : State) :
    s.pattern.finish = s.finish.map (List.map Token.pattern) := by
  obtain ⟨out, stack⟩ := s
  simp only [State.finish, State.pattern, releaseGroup, release_pattern]
  obtain ⟨released, remaining⟩ := release 0 stack
  cases remaining with
  | nil => simp [Except.map]
  | cons top below =>
      cases top with
      | operator _ => simp [Pending.pattern, Except.map]
      | opening _ => rfl

/-- Of the patterns, the conversion makes the pattern of the sequence, or finds the same fault. -/
theorem ofTokens_pattern (tokens : List Token) :
    ofTokens (tokens.map Token.pattern) = (ofTokens tokens).map (List.map Token.pattern) := by
  show (State.initial.pattern.run 0 (tokens.map Token.pattern)).bind State.finish =
    ((State.initial.run 0 tokens).bind State.finish).map _
  rw [run_pattern]
  cases State.initial.run 0 tokens with
  | error e => rfl
  | ok s => exact finish_pattern s

/-! ## Parentheses and groups -/

section Groups
variable (tokens : List Token)

theorem parens_pattern : parens (tokens.map Token.pattern) = parens tokens := by
  rw [parens, parens, List.filterMap_map]
  exact congrArg (List.filterMap · tokens) (funext paren?_pattern)

theorem getElem?_pattern_eq_paren_iff (i : Nat) (side : Paren) :
    (tokens.map Token.pattern)[i]? = some (.paren side) ↔ tokens[i]? = some (.paren side) := by
  rw [List.getElem?_map]
  cases tokens[i]? with
  | none => simp
  | some token => simp [pattern_eq_paren_iff]

theorem partners_pattern_iff (i j : Nat) :
    Partners (tokens.map Token.pattern) i j ↔ Partners tokens i j := by
  have hbetween :
      parens (between (tokens.map Token.pattern) i j) = parens (between tokens i j) := by
    rw [between, ← List.map_take, ← List.map_drop, parens_pattern, between]
  constructor
  · rintro ⟨hlt, hopening, hclosing, hbalanced⟩
    exact ⟨hlt, (getElem?_pattern_eq_paren_iff _ _ _).mp hopening,
      (getElem?_pattern_eq_paren_iff _ _ _).mp hclosing, hbetween ▸ hbalanced⟩
  · rintro ⟨hlt, hopening, hclosing, hbalanced⟩
    exact ⟨hlt, (getElem?_pattern_eq_paren_iff _ _ _).mpr hopening,
      (getElem?_pattern_eq_paren_iff _ _ _).mpr hclosing, hbetween.symm ▸ hbalanced⟩

theorem group_pattern (place : Nat) :
    group (tokens.map Token.pattern) place = group tokens place := by
  have hopened : opened (tokens.map Token.pattern) place = opened tokens place := by
    refine List.filter_congr fun i _ => ?_
    simp only [getElem?_pattern_eq_paren_iff, partners_pattern_iff]
  rw [group, hopened, group]

end Groups

/-! ## Release points -/

theorem stops_pattern (op : Operator) (token : Token) :
    stops op.pattern token.pattern = stops op token := by
  match token with
  | .operand _ | .paren .opening | .paren .closing => rfl
  | .operator op' => simp [stops, Token.pattern]

theorem releases_pattern_iff (tokens : List Token) (op : Operator) (j place : Nat) :
    Releases (tokens.map Token.pattern) op.pattern j place ↔ Releases tokens op j place := by
  have hstops : ((tokens.map Token.pattern)[place]?).any (stops op.pattern) =
      (tokens[place]?).any (stops op) := by
    rw [List.getElem?_map, Option.any_map]
    exact congrArg (Option.any · tokens[place]?) (funext (stops_pattern op))
  rw [Releases, Releases, List.length_map, group_pattern, group_pattern, hstops]

theorem releasePoint_pattern (tokens : List Token) (op : Operator) (j : Nat) :
    releasePoint (tokens.map Token.pattern) op.pattern j = releasePoint tokens op j :=
  Nat.find_congr' fun {place} => and_congr_right fun _ => releases_pattern_iff tokens op j place

theorem key_pattern (tokens : List Token) (p : Token × Nat) :
    key (tokens.map Token.pattern) (p.map Token.pattern id) = key tokens p := by
  match p with
  | (.operator op, j) => exact releasePoint_pattern tokens op j
  | (.operand _, _) | (.paren _, _) => rfl

theorem places_pattern (tokens : List Token) :
    places (tokens.map Token.pattern) = (places tokens).map (Prod.map Token.pattern id) := by
  rw [places, places, List.zipIdx_map, List.filter_map]
  refine congrArg (List.map _) (List.filter_congr fun p _ => ?_)
  simp

/-! ## The order of places -/

/-- The places of the operands and operators in the order in which they are put out. -/
def order (tokens : List Token) : List Nat :=
  ((places tokens).mergeSort fun p q => Before tokens p q).map Prod.snd

theorem order_pattern (tokens : List Token) : order (tokens.map Token.pattern) = order tokens := by
  have hbefore : ∀ p q : Token × Nat, Before (tokens.map Token.pattern)
      (p.map Token.pattern id) (q.map Token.pattern id) ↔ Before tokens p q := by
    intro p q
    rw [Before, Before, key_pattern, key_pattern]
    exact Iff.rfl
  rw [order, places_pattern, ← List.map_mergeSort (r := fun p q => Before tokens p q), List.map_map]
  · rfl
  · intro p _ q _
    exact decide_eq_decide.mpr (hbefore p q).symm

/-- The list has the places of the operands and operators, each of them once, and
the tokens at these places are the sequence. -/
structure Arranges (arranged : List Nat) (tokens sequence : List Token) : Prop where
  nodup : arranged.Nodup
  mem_iff : ∀ i, i ∈ arranged ↔ ∃ token, tokens[i]? = some token ∧ token.paren? = none
  map_eq : arranged.map (tokens[·]?) = sequence.map some

theorem mem_places {tokens : List Token} {token : Token} {i : Nat} :
    (token, i) ∈ places tokens ↔ tokens[i]? = some token ∧ token.paren? = none := by
  rw [places, List.mem_filter, List.mem_zipIdx_iff_getElem?, Option.isNone_iff_eq_none]

theorem nodup_places (tokens : List Token) : ((places tokens).map Prod.snd).Nodup := by
  have hsub : List.Sublist ((places tokens).map Prod.snd) (tokens.zipIdx.map Prod.snd) :=
    List.filter_sublist.map Prod.snd
  rw [List.zipIdx_map_snd] at hsub
  exact hsub.nodup List.nodup_range'

theorem arranges_order {tokens sequence : List Token} (h : ofTokens tokens = .ok sequence) :
    Arranges (order tokens) tokens sequence := by
  have hperm := List.mergeSort_perm (places tokens) fun p q => Before tokens p q
  constructor
  · exact (hperm.map Prod.snd).nodup_iff.mpr (nodup_places tokens)
  · intro i
    rw [order, (hperm.map Prod.snd).mem_iff, List.mem_map]
    constructor
    · rintro ⟨⟨token, i⟩, hmem, rfl⟩
      exact ⟨token, mem_places.mp hmem⟩
    · rintro ⟨token, htoken⟩
      exact ⟨(token, i), mem_places.mpr htoken, rfl⟩
  -- `order` and `released` are the places and the tokens of one sorted list
  · rw [eq_released_of_ofTokens h, order, released, List.map_map, List.map_map]
    refine List.map_congr_left fun p hp => ?_
    exact (mem_places.mp (hperm.mem_iff.mp hp)).1

end Postfix

end ArithTree
