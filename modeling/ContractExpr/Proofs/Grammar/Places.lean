import ContractExpr.Proofs.Expr.Finishing
import ContractExpr.Proofs.Grammar.Building

/-! # Where nodes lie among their tokens

The span of a node that tokens build reaches from the start of one of them to the end of one of
them, covers the spans of its children, and the children follow each other as they are written. Only
a field that is written by its name alone has two children in one place.
-/

set_option autoImplicit false

namespace ContractExpr

open Token

/-! ## Spans in order -/

namespace Span

/-- The first span ends before the second one begins, and is on no later line. -/
structure Before (first second : Span) : Prop where
  apart : first.stop ≤ second.start
  line : first.line ≤ second.line

/-- The first span begins and ends no later than the second one, and is on no later line. -/
structure Leads (first second : Span) : Prop where
  start : first.start ≤ second.start
  stop : first.stop ≤ second.stop
  line : first.line ≤ second.line

section Leads

variable {first second third : Span}

theorem Leads.refl (span : Span) : span.Leads span :=
  ⟨Nat.le_refl _, Nat.le_refl _, Nat.le_refl _⟩

theorem Leads.trans (near : first.Leads second) (far : second.Leads third) : first.Leads third :=
  ⟨Nat.le_trans near.start far.start, Nat.le_trans near.stop far.stop,
    Nat.le_trans near.line far.line⟩

/-- Spans in order merge to what lies from the start of the one to the end of the other. -/
theorem Leads.merge_eq (leads : first.Leads second) :
    first.merge second = ⟨first.start, second.stop, first.line, first.column⟩ := by
  rw [merge, Nat.min_eq_left leads.start, Nat.max_eq_right leads.stop,
    Nat.min_eq_left leads.line, if_pos leads.line]

end Leads

structure InOrder (spans : List Span) : Prop where
  filled : ∀ span ∈ spans, span.start < span.stop
  ordered : spans.Pairwise Before

namespace InOrder

variable {spans spans' : List Span} {span : Span}

theorem sublist (inOrder : InOrder spans) (part : spans'.Sublist spans) : InOrder spans' :=
  ⟨fun span member => inOrder.filled span (part.subset member), inOrder.ordered.sublist part⟩

theorem leads_of_append (inOrder : InOrder (spans ++ spans')) :
    ∀ first ∈ spans, ∀ second ∈ spans', first.Leads second := by
  intro first inFront second inBack
  have filled := inOrder.filled first (List.mem_append_left _ inFront)
  have filled' := inOrder.filled second (List.mem_append_right _ inBack)
  obtain ⟨apart, line⟩ := (List.pairwise_append.mp inOrder.ordered).2.2 first inFront second inBack
  exact ⟨by omega, by omega, line⟩

theorem head_leads (inOrder : InOrder spans) (head : spans.head? = some span) :
    ∀ other ∈ spans, span.Leads other := by
  obtain ⟨rest, rfl⟩ := List.head?_eq_some_iff.mp head
  have apart : InOrder ([span] ++ rest) := inOrder
  exact List.forall_mem_cons.mpr
    ⟨.refl span, apart.leads_of_append span (List.mem_singleton_self span)⟩

theorem leads_last (inOrder : InOrder spans) (last : spans.getLast? = some span) :
    ∀ other ∈ spans, other.Leads span := by
  obtain ⟨front, rfl⟩ := List.getLast?_eq_some_iff.mp last
  exact List.forall_mem_append.mpr ⟨fun other member =>
    inOrder.leads_of_append other member span (List.mem_singleton_self span),
    List.forall_mem_singleton.mpr (.refl span)⟩

end InOrder
end Span

namespace Token

def InOrder (tokens : List Token) : Prop := Span.InOrder (tokens.map Token.span)

namespace InOrder

variable {tokens others : List Token} {token token' : Token}

theorem sublist (inOrder : InOrder tokens) (part : others.Sublist tokens) : InOrder others :=
  Span.InOrder.sublist inOrder (part.map Token.span)

theorem front (inOrder : InOrder (tokens ++ others)) : InOrder tokens :=
  inOrder.sublist (List.sublist_append_left _ _)

theorem back (inOrder : InOrder (tokens ++ others)) : InOrder others :=
  inOrder.sublist (List.sublist_append_right _ _)

theorem tail (inOrder : InOrder (token :: tokens)) : InOrder tokens :=
  inOrder.sublist (List.sublist_cons_self _ _)

theorem before (inOrder : InOrder (tokens ++ others)) (inFront : token ∈ tokens)
    (inBack : token' ∈ others) : token.span.Before token'.span := by
  have ordered := List.pairwise_map.mp inOrder.ordered
  exact (List.pairwise_append.mp ordered).2.2 token inFront token' inBack

end InOrder
end Token

namespace Span

/-- The span reaches from the start of one of the tokens to the end of one of them. -/
structure Framed (tokens : List Token) (span : Span) : Prop where
  filled : span.start < span.stop
  begins : ∃ token ∈ tokens, token.span.start = span.start ∧ token.span.line = span.line ∧
    token.span.column = span.column
  ends : ∃ token ∈ tokens, token.span.stop = span.stop

namespace Framed

variable {tokens others : List Token} {token : Token} {span span' : Span}

theorem mono (framed : span.Framed tokens) (more : tokens ⊆ others) : span.Framed others := by
  obtain ⟨filled, ⟨first, inFirst, begins⟩, last, inLast, ends⟩ := framed
  exact ⟨filled, ⟨first, more inFirst, begins⟩, last, more inLast, ends⟩

theorem of_mem (inOrder : Token.InOrder tokens) (member : token ∈ tokens) :
    token.span.Framed tokens :=
  ⟨inOrder.filled _ (List.mem_map_of_mem member), ⟨token, member, rfl, rfl, rfl⟩, token, member,
    rfl⟩

theorem is_before (framed : span.Framed tokens) (framed' : span'.Framed others)
    (inOrder : Token.InOrder (tokens ++ others)) : span.Before span' := by
  obtain ⟨first, inFirst, _, line, _⟩ := framed.begins
  obtain ⟨last, inLast, stop⟩ := framed.ends
  obtain ⟨first', inFirst', start', line', _⟩ := framed'.begins
  have apart := (inOrder.before inLast inFirst').apart
  have lines := (inOrder.before inFirst inFirst').line
  exact ⟨by omega, by omega⟩

theorem head_leads (framed : span.Framed tokens) (inOrder : Token.InOrder tokens)
    (head : tokens.head? = some token) : token.span.Leads span := by
  have leads := Span.InOrder.head_leads inOrder (by rw [List.head?_map, head]; rfl)
  obtain ⟨first, inFirst, start, line, _⟩ := framed.begins
  obtain ⟨last, inLast, stop⟩ := framed.ends
  have atFirst := leads _ (List.mem_map_of_mem inFirst)
  have atLast := leads _ (List.mem_map_of_mem inLast)
  exact ⟨start ▸ atFirst.start, stop ▸ atLast.stop, line ▸ atFirst.line⟩

theorem leads_last (framed : span.Framed tokens) (inOrder : Token.InOrder tokens)
    (last : tokens.getLast? = some token) : span.Leads token.span := by
  have leads := Span.InOrder.leads_last inOrder (by rw [List.getLast?_map, last]; rfl)
  obtain ⟨first, inFirst, start, line, _⟩ := framed.begins
  obtain ⟨final, inFinal, stop⟩ := framed.ends
  have atFirst := leads _ (List.mem_map_of_mem inFirst)
  have atFinal := leads _ (List.mem_map_of_mem inFinal)
  exact ⟨start ▸ atFirst.start, stop ▸ atFinal.stop, line ▸ atFirst.line⟩

end Framed
end Span

/-! ## Nodes in their places -/

namespace Node

def span (node : Node) : Span := node.info.span

/-- A field that is written by its name alone: the value is the name again, and both have the place
of the field. -/
def IsShorthand : Node → Prop
  | .field entry =>
    ∃ id, entry.initializer = .identifier entry.name.text ⟨id, entry.name.info.span⟩ ∧
      entry.info.span = entry.name.info.span
  | _ => False

/-- The node lies between tokens, around its children, which follow each other. -/
structure Lies (tokens : List Token) (node : Node) : Prop where
  framed : node.span.Framed tokens
  covers : ∀ child ∈ node.children,
    node.span.start ≤ child.span.start ∧ child.span.stop ≤ node.span.stop
  apart : (node.children.map span).Pairwise Span.Before ∨ node.IsShorthand

end Node

namespace Grammar

structure Laid (tokens : List Token) (nodes : List Node) : Prop where
  each : ∀ node ∈ nodes.flatMap Node.finished, node.Lies tokens
  ordered : (nodes.map Node.span).Pairwise Span.Before

namespace Laid

variable {tokens others : List Token} {nodes nodes' : List Node} {node child final : Node}
  {token : Token} {first last : Span}

theorem nil (tokens : List Token) : Laid tokens [] := ⟨by simp, .nil⟩

theorem mono (laid : Laid tokens nodes) (more : tokens ⊆ others) : Laid others nodes := by
  refine ⟨fun node member => ?_, laid.ordered⟩
  obtain ⟨framed, covers, apart⟩ := laid.each node member
  exact ⟨framed.mono more, covers, apart⟩

theorem behind (laid : Laid tokens nodes) (token : Token) : Laid (token :: tokens) nodes :=
  laid.mono (List.subset_cons_self _ _)

theorem before (laid : Laid tokens nodes) (others : List Token) : Laid (tokens ++ others) nodes :=
  laid.mono (List.subset_append_left _ _)

theorem framed (laid : Laid tokens nodes) (member : node ∈ nodes) : node.span.Framed tokens := by
  refine (laid.each node (List.mem_flatMap.mpr ⟨node, member, ?_⟩)).framed
  simp [Node.finished_eq node]

theorem append (former : Laid tokens nodes) (latter : Laid others nodes')
    (inOrder : InOrder (tokens ++ others)) : Laid (tokens ++ others) (nodes ++ nodes') where
  each := by
    rw [List.flatMap_append]
    exact List.forall_mem_append.mpr
      ⟨(former.mono (List.subset_append_left _ _)).each,
        (latter.mono (List.subset_append_right _ _)).each⟩
  ordered := by
    rw [List.map_append]
    refine List.pairwise_append.mpr ⟨former.ordered, latter.ordered, ?_⟩
    intro span inFront span' inBack
    obtain ⟨node, member, rfl⟩ := List.mem_map.mp inFront
    obtain ⟨node', member', rfl⟩ := List.mem_map.mp inBack
    exact (former.framed member).is_before (latter.framed member') inOrder

theorem inOrder (laid : Laid tokens nodes) : Span.InOrder (nodes.map Node.span) where
  filled := by
    intro span member
    obtain ⟨node, inNodes, rfl⟩ := List.mem_map.mp member
    exact (laid.framed inNodes).filled
  ordered := laid.ordered

theorem head_leads (laid : Laid tokens nodes) (head : nodes.head? = some child) :
    ∀ other ∈ nodes, child.span.Leads other.span := by
  have leads := laid.inOrder.head_leads (by rw [List.head?_map, head]; rfl)
  exact fun other member => leads _ (List.mem_map_of_mem member)

theorem leads_last (laid : Laid tokens nodes) (last : nodes.getLast? = some child) :
    ∀ other ∈ nodes, other.span.Leads child.span := by
  have leads := laid.inOrder.leads_last (by rw [List.getLast?_map, last]; rfl)
  exact fun other member => leads _ (List.mem_map_of_mem member)

/-- A node that lies around nodes that are laid. -/
theorem around (below : Laid tokens node.children) (lies : node.Lies tokens) :
    Laid tokens [node] where
  each := by
    rw [List.flatMap_singleton, Node.finished_eq]
    exact List.forall_mem_append.mpr ⟨below.each, List.forall_mem_singleton.mpr lies⟩
  ordered := List.pairwise_singleton _ _

theorem leaf (inOrder : InOrder [token]) (none : node.children = [])
    (place : node.span = token.span) : Laid [token] [node] := by
  have below : Laid [token] node.children := none ▸ .nil _
  refine below.around ⟨?_, by simp [none], Or.inl below.ordered⟩
  rw [place]
  exact .of_mem inOrder (List.mem_singleton_self token)

/-- A node lies around its children when its span is merged from one that leads them all and one
that they all lead. -/
theorem parent (below : Laid tokens node.children) (inside : child ∈ node.children)
    (place : node.span = first.merge last) (begins : first.Framed tokens)
    (ends : last.Framed tokens) (front : ∀ child ∈ node.children, first.Leads child.span)
    (back : ∀ child ∈ node.children, child.span.Leads last) : Laid tokens [node] := by
  have leads : first.Leads last := (front child inside).trans (back child inside)
  rw [leads.merge_eq] at place
  refine below.around ⟨?_, fun child member => ?_, Or.inl below.ordered⟩
  · rw [place]
    exact ⟨Nat.lt_of_lt_of_le begins.filled leads.stop, begins.begins, ends.ends⟩
  · rw [place]
    exact ⟨(front child member).start, (back child member).stop⟩

theorem between (below : Laid tokens node.children) (head : node.children.head? = some child)
    (last : node.children.getLast? = some final)
    (place : node.span = child.span.merge final.span) : Laid tokens [node] := by
  have inFront := List.mem_of_mem_head? head
  exact below.parent inFront place (below.framed inFront)
    (below.framed (List.mem_of_mem_getLast? last)) (below.head_leads head) (below.leads_last last)

theorem from_token (below : Laid tokens node.children) (inOrder : InOrder tokens)
    (head : tokens.head? = some token) (last : node.children.getLast? = some child)
    (place : node.span = token.span.merge child.span) : Laid tokens [node] := by
  have inBack := List.mem_of_mem_getLast? last
  exact below.parent inBack place (.of_mem inOrder (List.mem_of_mem_head? head))
    (below.framed inBack) (fun _ member => (below.framed member).head_leads inOrder head)
    (below.leads_last last)

theorem to_token (below : Laid tokens node.children) (inOrder : InOrder tokens)
    (head : node.children.head? = some child) (last : tokens.getLast? = some token)
    (place : node.span = child.span.merge token.span) : Laid tokens [node] := by
  have inFront := List.mem_of_mem_head? head
  exact below.parent inFront place (below.framed inFront)
    (.of_mem inOrder (List.mem_of_mem_getLast? last)) (below.head_leads head)
    fun _ member => (below.framed member).leads_last inOrder last

theorem enclosed {close : Token} (below : Laid tokens node.children) (inOrder : InOrder tokens)
    (inside : child ∈ node.children) (head : tokens.head? = some token)
    (last : tokens.getLast? = some close) (place : node.span = token.span.merge close.span) :
    Laid tokens [node] :=
  below.parent inside place (.of_mem inOrder (List.mem_of_mem_head? head))
    (.of_mem inOrder (List.mem_of_mem_getLast? last))
    (fun _ member => (below.framed member).head_leads inOrder head)
    fun _ member => (below.framed member).leads_last inOrder last

theorem shorthand {name : Name} (inOrder : InOrder [token]) (place : name.info.span = token.span)
    (id id' : Nat) :
    Laid [token] [.field ⟨name, .identifier name.text ⟨id, token.span⟩,
      ⟨id', token.span.merge token.span⟩⟩] where
  each := by
    have framed := Span.Framed.of_mem inOrder (List.mem_singleton_self token)
    have self : token.span.merge token.span = token.span := (Span.Leads.refl _).merge_eq
    have name' : (Node.name name).span = token.span := place
    rw [self]
    intro node member
    simp only [List.flatMap_singleton, Node.finished, Expr.finished, List.cons_append,
      List.nil_append, List.mem_cons, List.not_mem_nil, or_false] at member
    rcases member with rfl | rfl | rfl
    · exact ⟨name' ▸ framed, by simp [Node.children], Or.inl .nil⟩
    · exact ⟨framed, by simp [Node.children], Or.inl .nil⟩
    · refine ⟨framed, ?_, Or.inr ⟨id, by rw [place], place.symm⟩⟩
      simp [Node.children, Node.span, Node.info, Expr.info, place]
  ordered := List.pairwise_singleton _ _

end Laid

/-! ## What tokens build -/

def Phrase.tops : Phrase → List Node
  | .expression tree | .chain _ tree | .signed tree | .suffixed tree | .primary tree =>
    [.expression tree]
  | .arguments trees => trees.map .expression
  | .field entry => [.field entry]
  | .fields entries => entries.map .field

section Parts

variable {α : Type} {wrap : α → Node} {parts : List (Part α)} {tokens : List Token}
  {first next : Nat}

theorem Row.laid (row : Row parts tokens first next)
    (each : ∀ part ∈ parts, InOrder part.tokens → Laid part.tokens [wrap part.value])
    (inOrder : InOrder tokens) : Laid tokens ((parts.map Part.value).map wrap) := by
  induction row with
  | single part => exact each part (List.mem_singleton_self part) inOrder
  | @snoc parts tokens first comma part before isComma ih =>
      obtain ⟨former, latter⟩ := List.forall_mem_append.mp each
      have last := latter part (List.mem_singleton_self part) inOrder.back.tail
      simpa using (ih former inOrder.front).append (last.behind comma) inOrder

theorem PartList.laid (listed : PartList parts tokens first next)
    (each : ∀ part ∈ parts, InOrder part.tokens → Laid part.tokens [wrap part.value])
    (inOrder : InOrder tokens) : Laid tokens ((parts.map Part.value).map wrap) := by
  cases listed with
  | nil => exact .nil _
  | plain row => exact row.laid each inOrder
  | trailing row => exact (row.laid each inOrder.front).before _

theorem PartList.laid_closed {opening close : Token} (listed : PartList parts tokens first next)
    (each : ∀ part ∈ parts, InOrder part.tokens → Laid part.tokens [wrap part.value])
    (inOrder : InOrder (opening :: (tokens ++ [close]))) :
    Laid (opening :: (tokens ++ [close])) ((parts.map Part.value).map wrap) :=
  ((listed.laid each inOrder.tail.front).before [close]).behind opening

end Parts

/-- The nodes of what tokens in order build lie between them. -/
theorem Builds.laid {left : Nat} {phrase : Phrase} {tokens : List Token} {first next : Nat}
    (built : Builds left phrase tokens first next) (inOrder : InOrder tokens) :
    Laid tokens phrase.tops := by
  have word {name : Name} {token : Token} {id : Nat} {tokens : List Token}
      (names : Names name token id) (inOrder : InOrder (token :: tokens)) :
      Laid [token] [.name name] := by
    have apart : InOrder ([token] ++ tokens) := inOrder
    exact .leaf apart.front rfl (congrArg Info.span names.info)
  have closed {first last : Token} {tokens : List Token} :
      (first :: (tokens ++ [last])).getLast? = some last :=
    List.getLast?_concat (l := first :: tokens)
  induction built with
  | unconditional _ ih | tighter _ _ ih | operand _ ih | unsigned _ ih | unsuffixed _ ih =>
      exact ih inOrder
  | conditional _ _ _ _ _ former middle latter =>
      have behind := inOrder.back.tail
      have branches := (middle behind.front).append ((latter behind.back.tail).behind _) behind
      have below := (former inOrder.front).append (branches.behind _) inOrder
      exact Laid.between below rfl rfl rfl
  | binary op _ _ _ former latter =>
      have below := (former inOrder.front).append ((latter inOrder.back.tail).behind _) inOrder
      exact Laid.between below rfl rfl rfl
  | sign op _ _ _ ih => exact Laid.from_token ((ih inOrder.tail).behind _) inOrder rfl rfl rfl
  | @doubleNot _ _ _ _ _ mark _ _ ih =>
      have below := (ih inOrder.tail).behind mark
      exact Laid.from_token (Laid.from_token below inOrder rfl rfl rfl) inOrder rfl rfl rfl
  | @notNull _ _ _ _ _ mark _ _ ih =>
      have below := (ih inOrder.front).before [mark]
      exact Laid.to_token below inOrder rfl (by simp) rfl
  | fieldAccess _ _ names ih =>
      have field := word names inOrder.back.tail
      have below := (ih inOrder.front).append (field.behind _) inOrder
      exact Laid.to_token below inOrder rfl (by simp) rfl
  | methodCall _ _ names _ ih given =>
      have behind := inOrder.back.tail
      have named := (word names behind).append (given behind.tail) behind
      have below := (ih inOrder.front).append (named.behind _) inOrder
      exact Laid.to_token below inOrder rfl (by simp [closed]) rfl
  | number | boolean | null | string => exact .leaf inOrder rfl rfl
  | identifier names => exact .leaf inOrder rfl (congrArg Info.span names.info)
  | call names _ given | structInstance names _ given =>
      have below := (word names inOrder).append (given inOrder.tail) inOrder
      exact Laid.enclosed below inOrder List.mem_cons_self rfl closed rfl
  | initOf _ names _ given =>
      have below := (word names inOrder.tail).append (given inOrder.tail.tail) inOrder.tail
      exact Laid.enclosed (below.behind _) inOrder List.mem_cons_self rfl (by simp [closed]) rfl
  | group _ _ _ ih => exact ((ih inOrder.tail.front).before _).behind _
  | arguments parts _ _ listed _ ih | fields parts _ _ listed _ ih =>
      exact listed.laid_closed ih inOrder
  | @briefField _ _ name token names =>
      exact Laid.shorthand inOrder (congrArg Info.span names.info) _ _
  | field names _ _ ih =>
      have below := (word names inOrder).append ((ih inOrder.tail.tail).behind _) inOrder
      exact Laid.from_token below inOrder rfl rfl rfl

end Grammar
end ContractExpr
