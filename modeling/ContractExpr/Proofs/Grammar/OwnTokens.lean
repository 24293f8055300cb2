import ContractExpr.Proofs.Expr.Spelling
import ContractExpr.Proofs.Grammar.Places

/-! # Trees with tokens of their own

Where parentheses only hold the arguments of calls and `!!` only stands behind operands, the span of
every tree within a tree reaches from the first to the last of a run of tokens that stands for it.
Parentheses around an operand are no part of its span, and two negations that are written as one
token begin in the same place.
-/

set_option autoImplicit false

namespace ContractExpr

open Token

/-! ## Runs without groups and double negations -/

namespace Token

def endsOperand : Kind → Bool
  | .boolean _ | .null | .number .. | .string _ | .name _ => true
  | .symbol .rightParen | .symbol .rightBrace | .symbol .doubleBang => true
  | _ => false

/-- Whether a token may stand behind the given one: a parenthesis opens the arguments of a call, so
that it stands behind a name, and `!!` stands behind an operand. -/
def follows (previous : Option Kind) : Kind → Bool
  | .symbol .leftParen => (previous matches some (.name _))
  | .symbol .doubleBang => previous.any endsOperand
  | _ => true

def isBare : Option Kind → List Kind → Bool
  | _, [] => true
  | previous, kind :: kinds => follows previous kind && isBare (some kind) kinds

theorem isBare_append (previous : Option Kind) (before behind : List Kind) :
    isBare previous (before ++ behind) =
      (isBare previous before && isBare (before.getLast?.or previous) behind) := by
  induction before generalizing previous with
  | nil => simp [isBare]
  | cons kind before ih =>
      have last : (kind :: before).getLast?.or previous = before.getLast?.or (some kind) := by
        cases before <;> simp [List.getLast?_cons]
      rw [List.cons_append, isBare, isBare, ih, last, Bool.and_assoc]

/-- A parenthesis and `!!` may only stand where an operand may end. -/
theorem endsOperand_of_follows {previous : Option Kind} {mark : Symbol}
    (allowed : follows previous (.symbol mark) = true)
    (wraps : mark = .leftParen ∨ mark = .doubleBang) : previous.any endsOperand = true := by
  rcases wraps with rfl | rfl
  · cases previous with
    | none => cases allowed
    | some kind => cases kind <;> first | rfl | cases allowed
  · exact allowed

/-- Tokens in order behind a token, with no parenthesis around an operand and no two negations in
one. -/
structure Bare (previous : Option Kind) (tokens : List Token) : Prop where
  inOrder : InOrder tokens
  bare : isBare previous (tokens.map Token.kind) = true

namespace Bare

variable {previous : Option Kind} {tokens others : List Token} {token : Token}

theorem front (run : Bare previous (tokens ++ others)) : Bare previous tokens := by
  have bare := run.bare
  rw [List.map_append, isBare_append, Bool.and_eq_true] at bare
  exact ⟨run.inOrder.front, bare.1⟩

theorem back (run : Bare previous (tokens ++ others)) :
    Bare ((tokens.map Token.kind).getLast?.or previous) others := by
  have bare := run.bare
  rw [List.map_append, isBare_append, Bool.and_eq_true] at bare
  exact ⟨run.inOrder.back, bare.2⟩

theorem tail (run : Bare previous (token :: tokens)) : Bare (some token.kind) tokens :=
  ⟨run.inOrder.tail, (Bool.and_eq_true_iff.mp run.bare).2⟩

/-- Where no operand stands in front, an operand begins with no parenthesis and with no `!!`. -/
theorem not_wraps {mark : Symbol} (run : Bare previous (token :: tokens))
    (opens : previous.any endsOperand = false) (isMark : token.kind = .symbol mark) :
    ¬(mark = .leftParen ∨ mark = .doubleBang) := by
  intro wraps
  have follows := (Bool.and_eq_true_iff.mp run.bare).1
  rw [isMark] at follows
  rw [endsOperand_of_follows follows wraps] at opens
  cases opens

end Bare
end Token

/-! ## Spans from the first token to the last -/

namespace Span

theorem Leads.merge_merge {first final first' final' : Span} (former : first.Leads final)
    (between : final.Leads first') (latter : first'.Leads final') :
    (first.merge final).merge (first'.merge final') = first.merge final' := by
  have across := former.trans between
  have outer : (first.merge final).Leads (first'.merge final') := by
    rw [former.merge_eq, latter.merge_eq]
    exact ⟨across.start, (between.trans latter).stop, across.line⟩
  rw [outer.merge_eq, former.merge_eq, latter.merge_eq, (across.trans latter).merge_eq]

def Spans (tokens : List Token) (span : Span) : Prop :=
  ∃ first last, tokens.head? = some first ∧ tokens.getLast? = some last ∧
    span = first.span.merge last.span

namespace Spans

variable {before behind rest : List Token} {span span' : Span}

theorem single (token : Token) : token.span.Spans [token] :=
  ⟨token, token, rfl, rfl, by rw [(Leads.refl _).merge_eq]⟩

/-- What lies around tokens in order is merged from what lies at their front and at their back. -/
theorem merge (former : span.Spans before) (latter : span'.Spans behind) (part : behind <:+ rest)
    (inOrder : Token.InOrder (before ++ rest)) : (span.merge span').Spans (before ++ rest) := by
  obtain ⟨middle, rfl⟩ := part
  obtain ⟨first, final, head, last, rfl⟩ := former
  obtain ⟨first', final', head', last', rfl⟩ := latter
  have inFront := List.mem_map_of_mem (f := Token.span) (List.mem_of_mem_getLast? last)
  have inBack := List.mem_map_of_mem (f := Token.span) (List.mem_of_mem_head? head')
  have leads : first.span.Leads final.span :=
    Span.InOrder.head_leads inOrder.front (by rw [List.head?_map, head]; rfl) _ inFront
  have leads' : first'.span.Leads final'.span :=
    Span.InOrder.leads_last inOrder.back.back (by rw [List.getLast?_map, last']; rfl) _ inBack
  have split : Span.InOrder (before.map Token.span ++ (middle.map Token.span ++
      behind.map Token.span)) := by
    simpa [Token.InOrder] using inOrder
  have across := split.leads_of_append _ inFront _ (List.mem_append_right _ inBack)
  exact ⟨first, final', by simp [head], by simp [last'], leads.merge_merge across leads'⟩

end Spans
end Span

namespace Grammar

def Phrase.tree? : Phrase → Option Expr
  | .expression tree | .chain _ tree | .signed tree | .suffixed tree | .primary tree => some tree
  | _ => none

/-- The levels that a whole expression may open where a phrase stands. -/
def Phrase.room (left : Nat) : Phrase → Nat
  | .expression _ => left
  | _ => left + 1

/-! ## Trees within a tree -/

/-- The tree stands for a run of the tokens, which its span reaches over. -/
def HasOwn (limit : Nat) (tokens : List Token) (tree : Expr) : Prop :=
  ∃ own, own <:+: tokens ∧ tree.span.Spans own ∧
    Derives true limit (.expression tree) (own.map Token.kind)

def Own (limit : Nat) (tokens : List Token) (nodes : List Node) : Prop :=
  ∀ tree, .expression tree ∈ nodes.flatMap Node.finished → HasOwn limit tokens tree

namespace Own

variable {limit : Nat} {tokens others : List Token} {nodes nodes' : List Node} {tree : Expr}

theorem mono (own : Own limit tokens nodes) (part : tokens <:+: others) :
    Own limit others nodes := by
  intro tree member
  obtain ⟨run, inside, rest⟩ := own tree member
  exact ⟨run, inside.trans part, rest⟩

theorem front (own : Own limit tokens nodes) (others : List Token) :
    Own limit (tokens ++ others) nodes :=
  own.mono (List.prefix_append _ _).isInfix

theorem back (own : Own limit tokens nodes) (others : List Token) :
    Own limit (others ++ tokens) nodes :=
  own.mono (List.suffix_append _ _).isInfix

theorem behind (own : Own limit tokens nodes) (token : Token) :
    Own limit (token :: tokens) nodes :=
  own.mono (List.suffix_cons _ _).isInfix

theorem append (former : Own limit tokens nodes) (latter : Own limit tokens nodes') :
    Own limit tokens (nodes ++ nodes') := by
  intro tree member
  rw [List.flatMap_append] at member
  exact (List.mem_append.mp member).elim (former tree) (latter tree)

/-- A node has what its children have, and itself when it is a tree. -/
theorem around {node : Node} (below : Own limit tokens node.children)
    (top : ∀ tree, node = .expression tree → HasOwn limit tokens tree) :
    Own limit tokens [node] := by
  intro tree member
  rw [List.flatMap_singleton, Node.finished_eq] at member
  rcases List.mem_append.mp member with inside | isTop
  · exact below tree inside
  · exact top tree (List.mem_singleton.mp isTop).symm

theorem nil (limit : Nat) (tokens : List Token) : Own limit tokens [] := by
  simp [Own]

theorem name (given : Name) : Own limit tokens [.name given] :=
  around (nil _ _) fun _ => nofun

end Own

structure Owned (limit : Nat) (phrase : Phrase) (tokens : List Token) : Prop where
  each : Own limit tokens phrase.tops
  spans : ∀ tree, phrase.tree? = some tree → tree.span.Spans tokens

theorem Owned.of_tree {limit : Nat} {phrase : Phrase} {tokens : List Token} {tree : Expr}
    (isTree : phrase.tree? = some tree) (below : Own limit tokens (Node.expression tree).children)
    (spans : tree.span.Spans tokens)
    (derived : Derives true limit (.expression tree) (tokens.map Token.kind)) :
    Owned limit phrase tokens where
  each := by
    have tops : phrase.tops = [.expression tree] := by
      cases phrase <;> cases isTree <;> rfl
    rw [tops]
    refine below.around fun same isSame => ?_
    cases isSame
    exact ⟨tokens, List.infix_rfl, spans, derived⟩
  spans same isSame := by
    obtain rfl := Option.some.inj (isTree.symm.trans isSame)
    exact spans

theorem Owned.of_strength {limit left : Nat} {phrase : Phrase} {tokens : List Token} {tree : Expr}
    (strength : Nat) (lower : Precedence.loosestBinary ≤ strength)
    (upper : strength ≤ Precedence.primary) (isTree : phrase.tree? = some tree)
    (below : Own limit tokens (Node.expression tree).children) (spans : tree.span.Spans tokens)
    (derived : Derives true left (.ofStrength strength tree) (tokens.map Token.kind))
    (room : left + 1 ≤ limit) : Owned limit phrase tokens :=
  .of_tree isTree below spans ((derived.whole strength lower upper).mono room)

theorem Owned.leaf {limit left : Nat} {token : Token} {tree : Expr} {kind : Kind}
    (none : (Node.expression tree).children = []) (place : tree.span = token.span)
    (isKind : token.kind = kind) (derived : Derives true left (.primary tree) [kind])
    (room : left + 1 ≤ limit) : Owned limit (.primary tree) [token] := by
  subst isKind
  exact .of_strength Precedence.primary (by decide) (by decide) rfl (none ▸ .nil _ _)
    (place ▸ .single token) derived room

section Parts

variable {α : Type} {wrap : α → Node} {parts : List (Part α)} {tokens : List Token}
  {first next limit : Nat} {previous : Option Kind}

/-- A node has what is its own wherever its tokens stand behind no operand. -/
def OwnPart (limit : Nat) (tokens : List Token) (node : Node) : Prop :=
  ∀ previous : Option Kind, Bare previous tokens → previous.any endsOperand = false →
    Own limit tokens [node]

theorem Row.own (row : Row parts tokens first next)
    (each : ∀ part ∈ parts, OwnPart limit part.tokens (wrap part.value))
    (run : Bare previous tokens) (opens : previous.any endsOperand = false) :
    Own limit tokens ((parts.map Part.value).map wrap) := by
  induction row with
  | single part => exact each part (List.mem_singleton_self part) previous run opens
  | @snoc parts tokens first comma part before isComma ih =>
      obtain ⟨former, latter⟩ := List.forall_mem_append.mp each
      have last := latter part (List.mem_singleton_self part) _ run.back.tail (by rw [isComma]; rfl)
      simpa using ((ih former run.front).front _).append ((last.behind comma).back _)

theorem PartList.own (listed : PartList parts tokens first next)
    (each : ∀ part ∈ parts, OwnPart limit part.tokens (wrap part.value))
    (run : Bare previous tokens) (opens : previous.any endsOperand = false) :
    Own limit tokens ((parts.map Part.value).map wrap) := by
  cases listed with
  | nil => exact .nil _ _
  | plain row => exact row.own each run opens
  | trailing row => exact (row.own each run.front opens).front _

theorem PartList.own_closed {opening close : Token} (listed : PartList parts tokens first next)
    (each : ∀ part ∈ parts, OwnPart limit part.tokens (wrap part.value))
    (run : Bare previous (opening :: (tokens ++ [close])))
    (opens : endsOperand opening.kind = false) :
    Own limit (opening :: (tokens ++ [close])) ((parts.map Part.value).map wrap) :=
  ((listed.own each run.tail.front opens).front [close]).behind opening

end Parts

theorem endsOperand_binary (op : BinaryOp) : endsOperand (.symbol op.symbol) = false := by
  cases op <;> rfl

theorem endsOperand_sign {op : UnaryOp} (leads : op.followsOperand = false) :
    endsOperand (.symbol op.symbol) = false := by
  cases op <;> first | rfl | cases leads

/-- Where parentheses only hold the arguments of calls and `!!` stands behind operands, every tree
that tokens build has tokens of its own. -/
theorem Builds.owned {left limit : Nat} {phrase : Phrase} {tokens : List Token} {first next : Nat}
    {previous : Option Kind} (built : Builds left phrase tokens first next)
    (run : Bare previous tokens)
    (opens : phrase.tree?.isSome = true → previous.any endsOperand = false)
    (room : phrase.room left ≤ limit) : Owned limit phrase tokens := by
  have behind {token : Token} {kind : Kind} (isKind : token.kind = kind)
      (opens : endsOperand kind = false) : (some token.kind).any endsOperand = false := by
    rw [isKind]
    exact opens
  have closed {first last : Token} {tokens : List Token} :
      (first :: (tokens ++ [last])).getLast? = some last :=
    List.getLast?_concat (l := first :: tokens)
  induction built generalizing previous with
  | unconditional _ ih | tighter _ _ ih | operand _ ih | unsigned _ ih | unsuffixed _ ih =>
      obtain ⟨each, spans⟩ := ih run opens room
      exact ⟨each, spans⟩
  | @conditional _ _ _ _ _ _ _ _ _ _ _ question colon condition isQuestion consequent isColon
      alternative former middle latter =>
      have built := Builds.conditional condition isQuestion consequent isColon alternative
      have first := former run.front opens room
      have second := middle run.back.tail.front (fun _ => behind isQuestion rfl) room
      have third := latter run.back.tail.back.tail (fun _ => behind isColon rfl)
        (Nat.le_of_succ_le room)
      have branches := (second.each.front _).append ((third.each.behind colon).back _)
      refine .of_tree rfl ((first.each.front _).append ((branches.behind question).back _)) ?_
        (built.derives.mono room)
      exact (first.spans _ rfl).merge (third.spans _ rfl)
        ((List.suffix_cons _ _).trans (List.suffix_append (question :: _) _)) run.inOrder
  | @binary _ _ _ _ _ _ _ _ mark op inFront isMark inBack former latter =>
      have built := Builds.binary op inFront isMark inBack
      have first := former run.front opens room
      have second := latter run.back.tail (fun _ => behind isMark (endsOperand_binary op)) room
      have derived := built.derives
      have below := op.precedence_lt_sign
      rw [show Phrase.chain op.precedence _ = .ofStrength op.precedence _ from (if_pos below).symm]
        at derived
      refine .of_strength op.precedence op.loosestBinary_le_precedence
        (Nat.le_trans (Nat.le_of_lt below) (by decide)) rfl
        ((first.each.front _).append ((second.each.behind mark).back _)) ?_ derived room
      exact (first.spans _ rfl).merge (second.spans _ rfl) (List.suffix_cons _ _) run.inOrder
  | @sign _ _ _ _ _ mark op leads isMark inner ih =>
      have built := Builds.sign op leads isMark inner
      have operand := ih run.tail (fun _ => behind isMark (endsOperand_sign leads))
        (Nat.le_of_succ_le room)
      refine .of_strength Precedence.sign (by decide) (by decide) rfl (operand.each.behind mark) ?_
        built.derives room
      exact (Span.Spans.single mark).merge (operand.spans _ rfl) (List.suffix_refl _) run.inOrder
  | doubleNot isMark => exact absurd (Or.inr rfl) (run.not_wraps (opens rfl) isMark)
  | @notNull _ _ _ _ _ mark inner isMark ih =>
      have built := Builds.notNull inner isMark
      have operand := ih run.front opens room
      refine .of_strength Precedence.access (by decide) (by decide) rfl (operand.each.front _) ?_
        built.derives room
      exact (operand.spans _ rfl).merge (.single mark) (List.suffix_refl _) run.inOrder
  | @fieldAccess _ _ _ _ _ dot word field inner isDot names ih =>
      have built := Builds.fieldAccess inner isDot names
      have operand := ih run.front opens room
      refine .of_strength Precedence.access (by decide) (by decide) rfl
        ((operand.each.front _).append (.name field)) ?_ built.derives room
      exact (operand.spans _ rfl).merge (.single word) (List.suffix_cons _ _) run.inOrder
  | @methodCall _ _ _ _ _ _ _ _ dot word close method inner isDot names given ih each =>
      have built := Builds.methodCall inner isDot names given
      have operand := ih run.front opens room
      have inBack := each run.back.tail.tail nofun room
      have named := (Own.name method).append ((inBack.each.behind word).behind dot)
      refine .of_strength Precedence.access (by decide) (by decide) rfl
        ((operand.each.front _).append (named.back _)) ?_ built.derives room
      exact (operand.spans _ rfl).merge (.single close)
        (List.suffix_append (dot :: word :: _) _) run.inOrder
  | number isNumber read => exact .leaf rfl rfl isNumber (.number _ read) room
  | boolean isBoolean => exact .leaf rfl rfl isBoolean (.boolean _ _) room
  | null isNull => exact .leaf rfl rfl isNull (.null _) room
  | string isString => exact .leaf rfl rfl isString (.string _ _) room
  | identifier names =>
      exact .leaf rfl (congrArg Info.span names.info) names.kind (.identifier _ _) room
  | @call _ _ _ _ _ word close function names given each =>
      have built := Builds.call names given
      have inBack := each run.tail nofun room
      have below := (Own.name function).append (inBack.each.behind word)
      exact .of_strength Precedence.primary (by decide) (by decide) rfl below
        ⟨word, close, rfl, closed, rfl⟩ built.derives room
  | @structInstance _ _ _ _ _ word close type names given each =>
      have built := Builds.structInstance names given
      have inBack := each run.tail nofun room
      have below := (Own.name type).append (inBack.each.behind word)
      exact .of_strength Precedence.primary (by decide) (by decide) rfl below
        ⟨word, close, rfl, closed, rfl⟩ built.derives room
  | @initOf _ _ _ _ _ start word close contract isInitOf names given each =>
      have built := Builds.initOf isInitOf names given
      have inBack := each run.tail.tail nofun room
      have below := (Own.name contract).append ((inBack.each.behind word).behind start)
      exact .of_strength Precedence.primary (by decide) (by decide) rfl below
        ⟨start, close, rfl, by simp [closed], rfl⟩ built.derives room
  | group isOpening _ _ ih => exact absurd (Or.inl rfl) (run.not_wraps (opens rfl) isOpening)
  | arguments parts isOpening _ listed isClose ih =>
      refine ⟨listed.own_closed (fun part member previous run opens => ?_) run
        (by rw [isOpening]; rfl), nofun⟩
      exact (ih part member run (fun _ => opens) (Nat.le_of_succ_le room)).each
  | fields parts isOpening _ listed isClose ih =>
      refine ⟨listed.own_closed (fun part member previous run opens => ?_) run
        (by rw [isOpening]; rfl), nofun⟩
      exact (ih part member run nofun room).each
  | @briefField _ first name token names =>
      have value := Owned.leaf rfl rfl names.kind
        (.identifier name.text ⟨first + 1, token.span⟩) room
      exact ⟨.around ((Own.name name).append value.each) fun _ => nofun, nofun⟩
  | @field _ _ _ name tree tokens word colon names isColon inner ih =>
      have value := ih run.tail.tail (fun _ => behind isColon rfl) (Nat.le_of_succ_le room)
      have below := (Own.name name).append ((value.each.behind colon).behind word)
      exact ⟨.around below fun _ => nofun, nofun⟩

end Grammar
end ContractExpr
