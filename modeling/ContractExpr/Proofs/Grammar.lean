import ContractExpr.Parser.Grammar
import ContractExpr.Proofs.Expr.Alike

/-! # What a run of tokens stands for

`Derives brief left phrase kinds` says that a run of token kinds is written by a form of the
grammar and stands for a tree, opening at most `left` levels on top of each other. Binary operators
are left-recursive here and lists are not read in order, so nothing in this relation tells how to
parse. The flag `brief` says whether a field may leave its value out.
-/

set_option autoImplicit false

namespace ContractExpr

theorem BinaryOp.loosestBinary_le_precedence (op : BinaryOp) :
    Precedence.loosestBinary ≤ op.precedence := by
  cases op <;> decide

theorem BinaryOp.precedence_lt_sign (op : BinaryOp) : op.precedence < Precedence.sign := by
  cases op <;> decide

theorem UnaryOp.sign_le_precedence (op : UnaryOp) : Precedence.sign ≤ op.precedence := by
  cases op <;> decide

theorem UnaryOp.precedence_le_access (op : UnaryOp) : op.precedence ≤ Precedence.access := by
  cases op <;> decide

namespace Grammar

open Token

/-- A form of the grammar with what it stands for. -/
inductive Phrase where
  /-- A whole expression, which opens a level. -/
  | expression (tree : Expr)
  /-- Operands with binary operators of at least the given strength between them. -/
  | chain (least : Nat) (tree : Expr)
  /-- An operand with the operators before it. -/
  | signed (tree : Expr)
  /-- A primary expression with field accesses, method calls and null checks behind it. -/
  | suffixed (tree : Expr)
  | primary (tree : Expr)
  | arguments (trees : List Expr)
  | field (entry : Field Expr)
  | fields (entries : List (Field Expr))

def joined : List (List Kind) → List Kind
  | [] => []
  | first :: rest => first ++ rest.flatMap (Kind.symbol .comma :: ·)

/-- A comma list of the given runs: a comma may stand behind the last one. -/
inductive Listing (runs : List (List Kind)) : List Kind → Prop where
  | plain : Listing runs (joined runs)
  | trailing (nonempty : runs ≠ []) : Listing runs (joined runs ++ [.symbol .comma])

inductive Derives (brief : Bool) : Nat → Phrase → List Kind → Prop where
  | unconditional {left : Nat} {tree : Expr} {kinds : List Kind}
      (inner : Derives brief left (.chain Precedence.loosestBinary tree) kinds) :
      Derives brief (left + 1) (.expression tree) kinds
  | conditional {left : Nat} {condition consequent alternative : Expr}
      {before between behind : List Kind} (info : Info)
      (first : Derives brief left (.chain Precedence.loosestBinary condition) before)
      (second : Derives brief left (.chain Precedence.loosestBinary consequent) between)
      (third : Derives brief left (.expression alternative) behind) :
      Derives brief (left + 1) (.expression (.conditional condition consequent alternative info))
        (before ++ .symbol .question :: (between ++ .symbol .colon :: behind))
  | tighter {left least : Nat} {tree : Expr} {kinds : List Kind}
      (below : least < Precedence.sign)
      (inner : Derives brief left (.chain (least + 1) tree) kinds) :
      Derives brief left (.chain least tree) kinds
  | binary {left : Nat} {first second : Expr} {before behind : List Kind} (op : BinaryOp)
      (info : Info) (former : Derives brief left (.chain op.precedence first) before)
      (latter : Derives brief left (.chain (op.precedence + 1) second) behind) :
      Derives brief left (.chain op.precedence (.binary op first second info))
        (before ++ .symbol op.symbol :: behind)
  | operand {left : Nat} {tree : Expr} {kinds : List Kind}
      (inner : Derives brief left (.signed tree) kinds) :
      Derives brief left (.chain Precedence.sign tree) kinds
  | sign {left : Nat} {tree : Expr} {kinds : List Kind} (op : UnaryOp) (info : Info)
      (leads : op.followsOperand = false) (inner : Derives brief left (.signed tree) kinds) :
      Derives brief (left + 1) (.signed (.unary op tree info)) (.symbol op.symbol :: kinds)
  | doubleNot {left : Nat} {tree : Expr} {kinds : List Kind} (near far : Info)
      (inner : Derives brief left (.signed tree) kinds) :
      Derives brief (left + 1) (.signed (.unary .not (.unary .not tree near) far))
        (.symbol .doubleBang :: kinds)
  | unsigned {left : Nat} {tree : Expr} {kinds : List Kind}
      (inner : Derives brief left (.suffixed tree) kinds) :
      Derives brief left (.signed tree) kinds
  | unsuffixed {left : Nat} {tree : Expr} {kinds : List Kind}
      (inner : Derives brief left (.primary tree) kinds) :
      Derives brief left (.suffixed tree) kinds
  | notNull {left : Nat} {tree : Expr} {kinds : List Kind} (info : Info)
      (inner : Derives brief left (.suffixed tree) kinds) :
      Derives brief left (.suffixed (.unary .notNull tree info)) (kinds ++ [.symbol .doubleBang])
  | fieldAccess {left : Nat} {tree : Expr} {kinds : List Kind} (field : Name) (info : Info)
      (inner : Derives brief left (.suffixed tree) kinds) :
      Derives brief left (.suffixed (.fieldAccess tree field info))
        (kinds ++ [.symbol .dot, .name field.text])
  | methodCall {left : Nat} {tree : Expr} {trees : List Expr} {kinds behind : List Kind}
      (method : Name) (info : Info) (inner : Derives brief left (.suffixed tree) kinds)
      (given : Derives brief left (.arguments trees) behind) :
      Derives brief left (.suffixed (.methodCall tree method trees info))
        (kinds ++ .symbol .dot :: .name method.text :: behind)
  | number {left : Nat} {base : Base} {digits : String} {value : Number} (info : Info)
      (read : Number.ofDigits? base digits.toList = some value) :
      Derives brief left (.primary (.number value info)) [.number base digits]
  | boolean {left : Nat} (value : Bool) (info : Info) :
      Derives brief left (.primary (.boolean value info)) [.boolean value]
  | null {left : Nat} (info : Info) : Derives brief left (.primary (.null info)) [.null]
  | string {left : Nat} (content : String) (info : Info) :
      Derives brief left (.primary (.string content info)) [.string content]
  | identifier {left : Nat} (name : String) (info : Info) :
      Derives brief left (.primary (.identifier name info)) [.name name]
  | call {left : Nat} {trees : List Expr} {kinds : List Kind} (function : Name) (info : Info)
      (given : Derives brief left (.arguments trees) kinds) :
      Derives brief left (.primary (.call function trees info)) (.name function.text :: kinds)
  | structInstance {left : Nat} {entries : List (Field Expr)} {kinds : List Kind} (type : Name)
      (info : Info) (given : Derives brief left (.fields entries) kinds) :
      Derives brief left (.primary (.structInstance type entries info)) (.name type.text :: kinds)
  | initOf {left : Nat} {trees : List Expr} {kinds : List Kind} (contract : Name) (info : Info)
      (given : Derives brief left (.arguments trees) kinds) :
      Derives brief left (.primary (.initOf contract trees info))
        (.initOf :: .name contract.text :: kinds)
  | group {left : Nat} {tree : Expr} {kinds : List Kind}
      (inner : Derives brief left (.expression tree) kinds) :
      Derives brief left (.primary tree)
        (.symbol .leftParen :: (kinds ++ [.symbol .rightParen]))
  | arguments {left : Nat} {kinds : List Kind} (entries : List (Expr × List Kind))
      (each : ∀ entry ∈ entries, Derives brief left (.expression entry.1) entry.2)
      (listed : Listing (entries.map Prod.snd) kinds) :
      Derives brief left (.arguments (entries.map Prod.fst))
        (.symbol .leftParen :: (kinds ++ [.symbol .rightParen]))
  | briefField {left : Nat} (allowed : brief = true) (name : Name) (valueInfo info : Info) :
      Derives brief left (.field ⟨name, .identifier name.text valueInfo, info⟩) [.name name.text]
  | field {left : Nat} {tree : Expr} {kinds : List Kind} (name : Name) (info : Info)
      (inner : Derives brief left (.expression tree) kinds) :
      Derives brief left (.field ⟨name, tree, info⟩)
        (.name name.text :: .symbol .colon :: kinds)
  | fields {left : Nat} {kinds : List Kind} (entries : List (Field Expr × List Kind))
      (each : ∀ entry ∈ entries, Derives brief left (.field entry.1) entry.2)
      (listed : Listing (entries.map Prod.snd) kinds) :
      Derives brief left (.fields (entries.map Prod.fst))
        (.symbol .leftBrace :: (kinds ++ [.symbol .rightBrace]))

/-! ## Comma lists -/

theorem mem_joined {kind : Kind} {runs : List (List Kind)} (member : kind ∈ joined runs) :
    kind = .symbol .comma ∨ ∃ run ∈ runs, kind ∈ run := by
  cases runs with
  | nil => simp [joined] at member
  | cons first rest =>
      simp only [joined, List.mem_append, List.mem_flatMap, List.mem_cons] at member ⊢
      rcases member with inFirst | ⟨run, inRest, comma | inRun⟩
      · exact Or.inr ⟨first, Or.inl rfl, inFirst⟩
      · exact Or.inl comma
      · exact Or.inr ⟨run, Or.inr inRest, inRun⟩

theorem mem_joined_of_mem {kind : Kind} {run : List Kind} {runs : List (List Kind)}
    (inRuns : run ∈ runs) (inRun : kind ∈ run) : kind ∈ joined runs := by
  cases runs with
  | nil => simp at inRuns
  | cons first rest =>
      simp only [joined, List.mem_append, List.mem_flatMap, List.mem_cons] at inRuns ⊢
      rcases inRuns with rfl | inRest
      · exact Or.inl inRun
      · exact Or.inr ⟨run, inRest, Or.inr inRun⟩

namespace Listing

theorem mem {α : Type} {entries : List (α × List Kind)} {kind : Kind} {kinds : List Kind}
    (listed : Listing (entries.map Prod.snd) kinds) (member : kind ∈ kinds) :
    kind = .symbol .comma ∨ ∃ entry ∈ entries, kind ∈ entry.2 := by
  have inner : kind = .symbol .comma ∨ kind ∈ joined (entries.map Prod.snd) := by
    cases listed with
    | plain => exact Or.inr member
    | trailing nonempty =>
        rcases List.mem_append.mp member with inner | last
        · exact Or.inr inner
        · exact Or.inl (List.mem_singleton.mp last)
  rcases inner with comma | inner
  · exact Or.inl comma
  · refine (mem_joined inner).imp_right ?_
    rintro ⟨run, inRuns, inRun⟩
    obtain ⟨entry, inEntries, rfl⟩ := List.mem_map.mp inRuns
    exact ⟨entry, inEntries, inRun⟩

theorem mem_of_mem {α : Type} {entries : List (α × List Kind)} {entry : α × List Kind}
    {kind : Kind} {kinds : List Kind} (listed : Listing (entries.map Prod.snd) kinds)
    (inEntries : entry ∈ entries) (inRun : kind ∈ entry.2) : kind ∈ kinds := by
  have inner := mem_joined_of_mem (List.mem_map_of_mem inEntries) inRun
  cases listed with
  | plain => exact inner
  | trailing nonempty => exact List.mem_append_left _ inner

end Listing

/-! ## How a phrase begins -/

def beginsPrimary : Kind → Bool
  | .boolean _ | .null | .number .. | .string _ | .initOf | .name _ | .symbol .leftParen => true
  | _ => false

def Phrase.Begins : Phrase → Kind → Prop
  | .expression _, kind | .chain .., kind | .signed _, kind =>
    beginsPrimary kind = true ∨ kind.signs ≠ []
  | .suffixed _, kind | .primary _, kind => beginsPrimary kind = true
  | .arguments _, kind => kind = .symbol .leftParen
  | .field _, kind => ∃ text, kind = .name text
  | .fields _, kind => kind = .symbol .leftBrace

theorem signs_of_beginsPrimary {kind : Kind} (begins : beginsPrimary kind = true) :
    kind.signs = [] := by
  cases kind with
  | symbol mark => cases mark <;> simp_all [beginsPrimary, Kind.signs, Symbol.signs]
  | _ => rfl

theorem signs_symbol {op : UnaryOp} (leads : op.followsOperand = false) :
    op.symbol.signs = [op] := by
  cases op <;> first | rfl | simp [UnaryOp.followsOperand] at leads

/-- A token stands before an operand for no operator, for one, or for two negations. -/
theorem signs_cases (kind : Kind) :
    kind.signs = [] ∨
      (∃ op : UnaryOp, op.followsOperand = false ∧ kind = .symbol op.symbol ∧ kind.signs = [op]) ∨
        (kind = .symbol .doubleBang ∧ kind.signs = [.not, .not]) := by
  cases kind with
  | symbol mark =>
      cases mark with
      | plus => exact Or.inr (Or.inl ⟨.plus, rfl, rfl, rfl⟩)
      | minus => exact Or.inr (Or.inl ⟨.negate, rfl, rfl, rfl⟩)
      | bang => exact Or.inr (Or.inl ⟨.not, rfl, rfl, rfl⟩)
      | tilde => exact Or.inr (Or.inl ⟨.bitNot, rfl, rfl, rfl⟩)
      | doubleBang => exact Or.inr (Or.inr ⟨rfl, rfl⟩)
      | _ => exact Or.inl rfl
  | _ => exact Or.inl rfl

namespace Derives

variable {brief : Bool} {left : Nat} {phrase : Phrase} {kinds : List Kind}

theorem begins (derived : Derives brief left phrase kinds) :
    ∃ first rest, kinds = first :: rest ∧ phrase.Begins first := by
  induction derived with
  | unconditional _ ih | tighter _ _ ih | operand _ ih | unsuffixed _ ih => exact ih
  | unsigned _ ih =>
      obtain ⟨first, rest, rfl, begins⟩ := ih
      exact ⟨first, rest, rfl, Or.inl begins⟩
  | conditional _ _ _ _ ih | binary _ _ _ _ ih | notNull _ _ ih | fieldAccess _ _ _ ih
  | methodCall _ _ _ _ ih =>
      obtain ⟨first, rest, rfl, begins⟩ := ih
      exact ⟨first, _, List.cons_append, begins⟩
  | sign op _ leads =>
      refine ⟨_, _, rfl, Or.inr ?_⟩
      simp [Kind.signs, signs_symbol leads]
  | doubleNot => exact ⟨_, _, rfl, Or.inr (by simp [Kind.signs, Symbol.signs])⟩
  | number | boolean | null | string | identifier | call | structInstance | initOf | group
  | arguments | fields => exact ⟨_, _, rfl, rfl⟩
  | briefField _ name | field name => exact ⟨_, _, rfl, name.text, rfl⟩

/-- Whether a token takes part in an expression: it is no comment and not the end token. -/
def Significant (kind : Kind) : Prop := kind.isComment = false ∧ kind.isEnd = false

theorem listing_each {α : Type} {entries : List (α × List Kind)} {holds : Kind → Prop}
    (symbol : ∀ mark, holds (.symbol mark)) (listed : Listing (entries.map Prod.snd) kinds)
    (inside : ∀ entry ∈ entries, ∀ kind ∈ entry.2, holds kind) : ∀ kind ∈ kinds, holds kind := by
  intro kind member
  rcases listed.mem member with rfl | ⟨entry, inEntries, inRun⟩
  · exact symbol .comma
  · exact inside entry inEntries kind inRun

theorem each {holds : Kind → Prop} (symbol : ∀ mark, holds (.symbol mark))
    (name : ∀ text, holds (.name text)) (number : ∀ base digits, holds (.number base digits))
    (boolean : ∀ value, holds (.boolean value)) (string : ∀ content, holds (.string content))
    (null : holds .null) (initOf : holds .initOf) (derived : Derives brief left phrase kinds) :
    ∀ kind ∈ kinds, holds kind := by
  induction derived with
  | unconditional _ ih | tighter _ _ ih | operand _ ih | unsigned _ ih | unsuffixed _ ih => exact ih
  | conditional _ _ _ _ first second third =>
      simpa [or_imp, forall_and, symbol] using ⟨first, second, third⟩
  | binary _ _ _ _ former latter => simpa [or_imp, forall_and, symbol] using ⟨former, latter⟩
  | methodCall _ _ _ _ ih given => simpa [or_imp, forall_and, symbol, name] using ⟨ih, given⟩
  | sign _ _ _ _ ih | doubleNot _ _ _ ih | notNull _ _ ih | fieldAccess _ _ _ ih | call _ _ _ ih
  | structInstance _ _ _ ih | initOf _ _ _ ih | group _ ih | field _ _ _ ih =>
      simpa [or_imp, forall_and, symbol, name, initOf] using ih
  | number | boolean | null | string | identifier | briefField =>
      simp [number, boolean, null, string, name]
  | arguments entries _ listed ih | fields entries _ listed ih =>
      simpa [or_imp, forall_and, symbol] using listing_each symbol listed ih

/-- A derived token is neither a comment nor the end token. -/
theorem significant (derived : Derives brief left phrase kinds) :
    ∀ kind ∈ kinds, Significant kind :=
  derived.each (fun _ => ⟨rfl, rfl⟩) (fun _ => ⟨rfl, rfl⟩) (fun _ _ => ⟨rfl, rfl⟩)
    (fun _ => ⟨rfl, rfl⟩) (fun _ => ⟨rfl, rfl⟩) ⟨rfl, rfl⟩ ⟨rfl, rfl⟩

theorem sound (derived : Derives brief left phrase kinds) :
    ∀ kind ∈ kinds, kind.isMalformed = false :=
  derived.each (fun _ => rfl) (fun _ => rfl) (fun _ _ => rfl) (fun _ => rfl) (fun _ => rfl) rfl rfl

/-- A derivation stays one when more levels may be opened. -/
theorem mono {more : Nat} (derived : Derives brief left phrase kinds) (enough : left ≤ more) :
    Derives brief more phrase kinds := by
  induction derived generalizing more with
  | unconditional _ ih =>
      obtain ⟨more, rfl⟩ := Nat.exists_eq_add_one_of_ne_zero (Nat.ne_zero_of_lt enough)
      exact .unconditional (ih (Nat.le_of_succ_le_succ enough))
  | conditional info _ _ _ first second third =>
      obtain ⟨more, rfl⟩ := Nat.exists_eq_add_one_of_ne_zero (Nat.ne_zero_of_lt enough)
      have enough := Nat.le_of_succ_le_succ enough
      exact .conditional info (first enough) (second enough) (third enough)
  | tighter below _ ih => exact .tighter below (ih enough)
  | binary op info _ _ former latter => exact .binary op info (former enough) (latter enough)
  | operand _ ih => exact .operand (ih enough)
  | sign op info leads _ ih =>
      obtain ⟨more, rfl⟩ := Nat.exists_eq_add_one_of_ne_zero (Nat.ne_zero_of_lt enough)
      exact .sign op info leads (ih (Nat.le_of_succ_le_succ enough))
  | doubleNot near far _ ih =>
      obtain ⟨more, rfl⟩ := Nat.exists_eq_add_one_of_ne_zero (Nat.ne_zero_of_lt enough)
      exact .doubleNot near far (ih (Nat.le_of_succ_le_succ enough))
  | unsigned _ ih => exact .unsigned (ih enough)
  | unsuffixed _ ih => exact .unsuffixed (ih enough)
  | notNull info _ ih => exact .notNull info (ih enough)
  | fieldAccess field info _ ih => exact .fieldAccess field info (ih enough)
  | methodCall method info _ _ ih given => exact .methodCall method info (ih enough) (given enough)
  | number info read => exact .number info read
  | boolean value info => exact .boolean value info
  | null info => exact .null info
  | string content info => exact .string content info
  | identifier name info => exact .identifier name info
  | call function info _ given => exact .call function info (given enough)
  | structInstance type info _ given => exact .structInstance type info (given enough)
  | initOf contract info _ given => exact .initOf contract info (given enough)
  | group _ ih => exact .group (ih enough)
  | arguments entries _ listed ih =>
      exact .arguments entries (fun entry member => ih entry member enough) listed
  | briefField allowed name valueInfo info => exact .briefField allowed name valueInfo info
  | field name info _ ih => exact .field name info (ih enough)
  | fields entries _ listed ih =>
      exact .fields entries (fun entry member => ih entry member enough) listed

end Derives
end Grammar
end ContractExpr
