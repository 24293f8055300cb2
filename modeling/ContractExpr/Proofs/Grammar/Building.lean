import ContractExpr.Proofs.Grammar

/-! # What a run of tokens builds

`Builds left phrase tokens first next` says of tokens with their places what `Grammar.Derives` says
of their kinds, and tells what every node carries: its span, and its identity among those from
`first` up to `next`, which are taken in the order in which nodes are finished.
-/

set_option autoImplicit false

namespace ContractExpr.Grammar

open Token

/-- A value with the tokens it was read from and the identities taken for it. -/
structure Part (α : Type) where
  value : α
  tokens : List Token
  /-- The first identity taken. -/
  first : Nat
  /-- The first identity that is still free. -/
  next : Nat

inductive Row {α : Type} : List (Part α) → List Token → Nat → Nat → Prop where
  | single (part : Part α) : Row [part] part.tokens part.first part.next
  | snoc {parts : List (Part α)} {tokens : List Token} {first : Nat} {comma : Token}
      (part : Part α) (before : Row parts tokens first part.first)
      (isComma : comma.kind = .symbol .comma) :
      Row (parts ++ [part]) (tokens ++ comma :: part.tokens) first part.next

/-- A comma list of parts: a comma may stand behind the last one. -/
inductive PartList {α : Type} : List (Part α) → List Token → Nat → Nat → Prop where
  | nil (first : Nat) : PartList [] [] first first
  | plain {parts : List (Part α)} {tokens : List Token} {first next : Nat}
      (row : Row parts tokens first next) : PartList parts tokens first next
  | trailing {parts : List (Part α)} {tokens : List Token} {first next : Nat} {comma : Token}
      (row : Row parts tokens first next) (isComma : comma.kind = .symbol .comma) :
      PartList parts (tokens ++ [comma]) first next

structure Names (name : Name) (token : Token) (id : Nat) : Prop where
  kind : token.kind = .name name.text
  info : name.info = ⟨id, token.span⟩

inductive Builds : Nat → Phrase → List Token → Nat → Nat → Prop where
  | unconditional {left first next : Nat} {tree : Expr} {tokens : List Token}
      (inner : Builds left (.chain Precedence.loosestBinary tree) tokens first next) :
      Builds (left + 1) (.expression tree) tokens first next
  | conditional {left first second third last : Nat} {condition consequent alternative : Expr}
      {before between behind : List Token} {question colon : Token}
      (former : Builds left (.chain Precedence.loosestBinary condition) before first second)
      (isQuestion : question.kind = .symbol .question)
      (middle : Builds left (.chain Precedence.loosestBinary consequent) between second third)
      (isColon : colon.kind = .symbol .colon)
      (latter : Builds left (.expression alternative) behind third last) :
      Builds (left + 1)
        (.expression (.conditional condition consequent alternative
          ⟨last, condition.span.merge alternative.span⟩))
        (before ++ question :: (between ++ colon :: behind)) first (last + 1)
  | tighter {left least first next : Nat} {tree : Expr} {tokens : List Token}
      (below : least < Precedence.sign)
      (inner : Builds left (.chain (least + 1) tree) tokens first next) :
      Builds left (.chain least tree) tokens first next
  | binary {left first second last : Nat} {former latter : Expr} {before behind : List Token}
      {mark : Token} (op : BinaryOp)
      (inFront : Builds left (.chain op.precedence former) before first second)
      (isMark : mark.kind = .symbol op.symbol)
      (inBack : Builds left (.chain (op.precedence + 1) latter) behind second last) :
      Builds left
        (.chain op.precedence (.binary op former latter ⟨last, former.span.merge latter.span⟩))
        (before ++ mark :: behind) first (last + 1)
  | operand {left first next : Nat} {tree : Expr} {tokens : List Token}
      (inner : Builds left (.signed tree) tokens first next) :
      Builds left (.chain Precedence.sign tree) tokens first next
  | sign {left first next : Nat} {tree : Expr} {tokens : List Token} {mark : Token} (op : UnaryOp)
      (leads : op.followsOperand = false) (isMark : mark.kind = .symbol op.symbol)
      (inner : Builds left (.signed tree) tokens first next) :
      Builds (left + 1) (.signed (.unary op tree ⟨next, mark.span.merge tree.span⟩))
        (mark :: tokens) first (next + 1)
  | doubleNot {left first next : Nat} {tree : Expr} {tokens : List Token} {mark : Token}
      (isMark : mark.kind = .symbol .doubleBang)
      (inner : Builds left (.signed tree) tokens first next) :
      Builds (left + 1)
        (.signed (.unary .not (.unary .not tree ⟨next, mark.span.merge tree.span⟩)
          ⟨next + 1, mark.span.merge (mark.span.merge tree.span)⟩))
        (mark :: tokens) first (next + 2)
  | unsigned {left first next : Nat} {tree : Expr} {tokens : List Token}
      (inner : Builds left (.suffixed tree) tokens first next) :
      Builds left (.signed tree) tokens first next
  | unsuffixed {left first next : Nat} {tree : Expr} {tokens : List Token}
      (inner : Builds left (.primary tree) tokens first next) :
      Builds left (.suffixed tree) tokens first next
  | notNull {left first next : Nat} {tree : Expr} {tokens : List Token} {mark : Token}
      (inner : Builds left (.suffixed tree) tokens first next)
      (isMark : mark.kind = .symbol .doubleBang) :
      Builds left (.suffixed (.unary .notNull tree ⟨next, tree.span.merge mark.span⟩))
        (tokens ++ [mark]) first (next + 1)
  | fieldAccess {left first next : Nat} {tree : Expr} {tokens : List Token} {dot word : Token}
      {field : Name} (inner : Builds left (.suffixed tree) tokens first next)
      (isDot : dot.kind = .symbol .dot) (names : Names field word next) :
      Builds left (.suffixed (.fieldAccess tree field ⟨next + 1, tree.span.merge word.span⟩))
        (tokens ++ [dot, word]) first (next + 2)
  | methodCall {left first second last : Nat} {tree : Expr} {trees : List Expr}
      {tokens behind : List Token} {dot word close : Token} {method : Name}
      (inner : Builds left (.suffixed tree) tokens first second)
      (isDot : dot.kind = .symbol .dot) (names : Names method word second)
      (given : Builds left (.arguments trees) (behind ++ [close]) (second + 1) last) :
      Builds left
        (.suffixed (.methodCall tree method trees ⟨last, tree.span.merge close.span⟩))
        (tokens ++ dot :: word :: (behind ++ [close])) first (last + 1)
  | number {left first : Nat} {base : Base} {digits : String} {value : Number} {token : Token}
      (isNumber : token.kind = .number base digits)
      (read : Number.ofDigits? base digits.toList = some value) :
      Builds left (.primary (.number value ⟨first, token.span⟩)) [token] first (first + 1)
  | boolean {left first : Nat} {value : Bool} {token : Token}
      (isBoolean : token.kind = .boolean value) :
      Builds left (.primary (.boolean value ⟨first, token.span⟩)) [token] first (first + 1)
  | null {left first : Nat} {token : Token} (isNull : token.kind = .null) :
      Builds left (.primary (.null ⟨first, token.span⟩)) [token] first (first + 1)
  | string {left first : Nat} {content : String} {token : Token}
      (isString : token.kind = .string content) :
      Builds left (.primary (.string content ⟨first, token.span⟩)) [token] first (first + 1)
  | identifier {left first : Nat} {name : Name} {token : Token} (names : Names name token first) :
      Builds left (.primary (.identifier name.text name.info)) [token] first (first + 1)
  | call {left first last : Nat} {trees : List Expr} {behind : List Token} {word close : Token}
      {function : Name} (names : Names function word first)
      (given : Builds left (.arguments trees) (behind ++ [close]) (first + 1) last) :
      Builds left (.primary (.call function trees ⟨last, word.span.merge close.span⟩))
        (word :: (behind ++ [close])) first (last + 1)
  | structInstance {left first last : Nat} {entries : List (Field Expr)} {behind : List Token}
      {word close : Token} {type : Name} (names : Names type word first)
      (given : Builds left (.fields entries) (behind ++ [close]) (first + 1) last) :
      Builds left (.primary (.structInstance type entries ⟨last, word.span.merge close.span⟩))
        (word :: (behind ++ [close])) first (last + 1)
  | initOf {left first last : Nat} {trees : List Expr} {behind : List Token}
      {start word close : Token} {contract : Name} (isInitOf : start.kind = .initOf)
      (names : Names contract word first)
      (given : Builds left (.arguments trees) (behind ++ [close]) (first + 1) last) :
      Builds left (.primary (.initOf contract trees ⟨last, start.span.merge close.span⟩))
        (start :: word :: (behind ++ [close])) first (last + 1)
  | group {left first next : Nat} {tree : Expr} {tokens : List Token} {opening close : Token}
      (isOpening : opening.kind = .symbol .leftParen)
      (inner : Builds left (.expression tree) tokens first next)
      (isClose : close.kind = .symbol .rightParen) :
      Builds left (.primary tree) (opening :: (tokens ++ [close])) first next
  | arguments {left first next : Nat} {tokens : List Token} {opening close : Token}
      (parts : List (Part Expr)) (isOpening : opening.kind = .symbol .leftParen)
      (each : ∀ part ∈ parts,
        Builds left (.expression part.value) part.tokens part.first part.next)
      (listed : PartList parts tokens first next)
      (isClose : close.kind = .symbol .rightParen) :
      Builds left (.arguments (parts.map Part.value)) (opening :: (tokens ++ [close])) first next
  | briefField {left first : Nat} {name : Name} {token : Token} (names : Names name token first) :
      Builds left
        (.field ⟨name, .identifier name.text ⟨first + 1, token.span⟩,
          ⟨first + 2, token.span.merge token.span⟩⟩)
        [token] first (first + 3)
  | field {left first last : Nat} {name : Name} {tree : Expr} {tokens : List Token}
      {word colon : Token} (names : Names name word first) (isColon : colon.kind = .symbol .colon)
      (inner : Builds left (.expression tree) tokens (first + 1) last) :
      Builds left (.field ⟨name, tree, ⟨last, word.span.merge tree.span⟩⟩)
        (word :: colon :: tokens) first (last + 1)
  | fields {left first next : Nat} {tokens : List Token} {opening close : Token}
      (parts : List (Part (Field Expr))) (isOpening : opening.kind = .symbol .leftBrace)
      (each : ∀ part ∈ parts, Builds left (.field part.value) part.tokens part.first part.next)
      (listed : PartList parts tokens first next)
      (isClose : close.kind = .symbol .rightBrace) :
      Builds left (.fields (parts.map Part.value)) (opening :: (tokens ++ [close])) first next

/-! ## The kinds of the tokens -/

theorem joined_append_singleton {runs : List (List Kind)} (nonempty : runs ≠ []) (run : List Kind) :
    joined (runs ++ [run]) = joined runs ++ .symbol .comma :: run := by
  cases runs with
  | nil => exact absurd rfl nonempty
  | cons first rest => simp [joined]

def Part.entry {α : Type} (part : Part α) : α × List Kind :=
  (part.value, part.tokens.map Token.kind)

section Parts

variable {α : Type} {parts : List (Part α)} {tokens : List Token} {first next : Nat}

theorem map_fst_entry (parts : List (Part α)) :
    (parts.map Part.entry).map Prod.fst = parts.map Part.value := by
  simp [Part.entry]

theorem Row.nonempty (row : Row parts tokens first next) : parts ≠ [] := by
  cases row with
  | single => simp
  | snoc => simp

theorem Row.kinds (row : Row parts tokens first next) :
    tokens.map Token.kind = joined ((parts.map Part.entry).map Prod.snd) := by
  induction row with
  | single part => simp [joined, Part.entry]
  | @snoc parts tokens first comma part before isComma ih =>
      have nonempty : (parts.map Part.entry).map Prod.snd ≠ [] := by simpa using before.nonempty
      simp only [List.map_append, List.map_cons, List.map_nil] at ih nonempty ⊢
      rw [joined_append_singleton nonempty, ih, isComma]
      rfl

theorem PartList.listing (listed : PartList parts tokens first next) :
    Listing ((parts.map Part.entry).map Prod.snd) (tokens.map Token.kind) := by
  cases listed with
  | nil => exact .plain
  | plain row =>
      rw [row.kinds]
      exact .plain
  | trailing row isComma =>
      rw [List.map_append, List.map_singleton, row.kinds, isComma]
      exact .trailing (by simpa using row.nonempty)

end Parts

theorem derives_entries {α : Type} {left : Nat} {single : α → Phrase} {parts : List (Part α)}
    (each : ∀ part ∈ parts, Derives true left (single part.value) (part.tokens.map Token.kind)) :
    ∀ entry ∈ parts.map Part.entry, Derives true left (single entry.1) entry.2 := by
  intro entry member
  obtain ⟨part, inParts, rfl⟩ := List.mem_map.mp member
  exact each part inParts

/-- The kinds of tokens that build a phrase derive it. -/
theorem Builds.derives {left : Nat} {phrase : Phrase} {tokens : List Token} {first next : Nat}
    (built : Builds left phrase tokens first next) :
    Derives true left phrase (tokens.map Token.kind) := by
  induction built with
  | unconditional _ ih => exact .unconditional ih
  | conditional _ isQuestion _ isColon _ former middle latter =>
      simp only [List.map_append, List.map_cons, isQuestion, isColon]
      exact .conditional _ former middle latter
  | tighter below _ ih => exact .tighter below ih
  | binary op _ isMark _ inFront inBack =>
      simp only [List.map_append, List.map_cons, isMark]
      exact .binary op _ inFront inBack
  | operand _ ih => exact .operand ih
  | sign op leads isMark _ ih =>
      simp only [List.map_cons, isMark]
      exact .sign op _ leads ih
  | doubleNot isMark _ ih =>
      simp only [List.map_cons, isMark]
      exact .doubleNot _ _ ih
  | unsigned _ ih => exact .unsigned ih
  | unsuffixed _ ih => exact .unsuffixed ih
  | notNull _ isMark ih =>
      simp only [List.map_append, List.map_cons, List.map_nil, isMark]
      exact .notNull _ ih
  | fieldAccess _ isDot names ih =>
      simp only [List.map_append, List.map_cons, List.map_nil, isDot, names.kind]
      exact .fieldAccess _ _ ih
  | methodCall _ isDot names _ ih given =>
      rw [List.map_append, List.map_cons, List.map_cons, isDot, names.kind]
      exact .methodCall _ _ ih given
  | number isNumber read =>
      rw [List.map_singleton, isNumber]
      exact .number _ read
  | boolean isBoolean =>
      rw [List.map_singleton, isBoolean]
      exact .boolean _ _
  | null isNull =>
      rw [List.map_singleton, isNull]
      exact .null _
  | string isString =>
      rw [List.map_singleton, isString]
      exact .string _ _
  | identifier names =>
      rw [List.map_singleton, names.kind]
      exact .identifier _ _
  | call names _ given =>
      rw [List.map_cons, names.kind]
      exact .call _ _ given
  | structInstance names _ given =>
      rw [List.map_cons, names.kind]
      exact .structInstance _ _ given
  | initOf isInitOf names _ given =>
      rw [List.map_cons, List.map_cons, isInitOf, names.kind]
      exact .initOf _ _ given
  | group isOpening _ isClose ih =>
      simp only [List.map_cons, List.map_append, List.map_nil, isOpening, isClose]
      exact .group ih
  | arguments parts isOpening _ listed isClose ih =>
      simp only [List.map_cons, List.map_append, List.map_nil, isOpening, isClose]
      rw [← map_fst_entry]
      exact .arguments _ (derives_entries ih) listed.listing
  | briefField names =>
      rw [List.map_singleton, names.kind]
      exact .briefField rfl _ _ _
  | field names isColon _ ih =>
      rw [List.map_cons, List.map_cons, names.kind, isColon]
      exact .field _ _ ih
  | fields parts isOpening _ listed isClose ih =>
      simp only [List.map_cons, List.map_append, List.map_nil, isOpening, isClose]
      rw [← map_fst_entry]
      exact .fields _ (derives_entries ih) listed.listing

end ContractExpr.Grammar
