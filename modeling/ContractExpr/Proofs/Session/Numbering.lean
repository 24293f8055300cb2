import ContractExpr.Proofs.Expr.Finishing
import ContractExpr.Proofs.Parser.Building
import ContractExpr.Proofs.Session.Calls

/-! # The identities of a tree

The nodes of a tree, in the order in which they are finished, have the identities from the next free
one of the session up. So no identity is left out or given twice, and every node has a greater one
than the nodes below it.
-/

set_option autoImplicit false

namespace ContractExpr

open Token

/-- The nodes have the identities from the first one up to the next one. -/
structure Numbered (nodes : List Node) (first next : Nat) : Prop where
  count : first + nodes.length = next
  ids : nodes.map (fun node => node.info.id) = List.range' first nodes.length

namespace Numbered

variable {nodes nodes' : List Node} {node : Node} {first middle next : Nat}

theorem nil (first : Nat) : Numbered [] first first := ⟨rfl, rfl⟩

theorem append (former : Numbered nodes first middle) (latter : Numbered nodes' middle next) :
    Numbered (nodes ++ nodes') first next where
  count := by
    have total := former.count
    have total' := latter.count
    rw [List.length_append]
    omega
  ids := by
    rw [List.map_append, former.ids, latter.ids, ← former.count, List.length_append,
      List.range'_append_1]

theorem single (id : node.info.id = first) : Numbered [node] first (first + 1) :=
  ⟨rfl, by simp [id]⟩

theorem cons (id : node.info.id = first) (behind : Numbered nodes (first + 1) next) :
    Numbered (node :: nodes) first next :=
  (single id).append behind

theorem finished (below : Numbered (node.children.flatMap Node.finished) first next)
    (id : node.info.id = next) : Numbered node.finished first (next + 1) := by
  rw [Node.finished_eq]
  exact below.append (single id)

/-- In a part of numbered nodes that one node ends, that node has the greatest identity. -/
theorem lt_of_infix {below : List Node} (numbered : Numbered nodes first next)
    (inside : below ++ [node] <:+: nodes) :
    ∀ other ∈ below, other.info.id < node.info.id := by
  have ordered : (nodes.map fun node => node.info.id).Pairwise (· < ·) := by
    rw [numbered.ids]
    exact List.pairwise_lt_range'
  have part := (List.pairwise_map.mp ordered).sublist inside.sublist
  intro other member
  exact (List.pairwise_append.mp part).2.2 other member node (by simp)

end Numbered

namespace Grammar

def Phrase.finished : Phrase → List Node
  | .expression tree | .chain _ tree | .signed tree | .suffixed tree | .primary tree =>
    tree.finished
  | .arguments trees => Expr.finishedOfList trees
  | .field entry => (Node.field entry).finished
  | .fields entries => Expr.finishedOfFields entries

section Parts

variable {α : Type} {wrap : α → Node} {parts : List (Part α)} {tokens : List Token}
  {first next : Nat}

theorem Row.numbered (row : Row parts tokens first next)
    (each : ∀ part ∈ parts, Numbered (wrap part.value).finished part.first part.next) :
    Numbered (((parts.map Part.value).map wrap).flatMap Node.finished) first next := by
  induction row with
  | single part => simpa using each
  | snoc part before isComma ih =>
      obtain ⟨former, latter⟩ := List.forall_mem_append.mp each
      simpa using (ih former).append (latter part (List.mem_singleton_self part))

theorem PartList.numbered (listed : PartList parts tokens first next)
    (each : ∀ part ∈ parts, Numbered (wrap part.value).finished part.first part.next) :
    Numbered (((parts.map Part.value).map wrap).flatMap Node.finished) first next := by
  cases listed with
  | nil => exact .nil first
  | plain row | trailing row => exact row.numbered each

end Parts

/-- The nodes of a phrase have the identities that were taken for it, in the order in which they
are finished. -/
theorem Builds.numbered {left : Nat} {phrase : Phrase} {tokens : List Token} {first next : Nat}
    (built : Builds left phrase tokens first next) : Numbered phrase.finished first next := by
  have name {name : Name} {token : Token} {id : Nat} (names : Names name token id) :
      (Node.name name).info.id = id := congrArg Info.id names.info
  induction built with
  | unconditional _ ih | tighter _ _ ih | operand _ ih | unsigned _ ih | unsuffixed _ ih
  | group _ _ _ ih => exact ih
  | conditional _ _ _ _ _ former middle latter =>
      exact ((former.append middle).append latter).append (.single rfl)
  | binary op _ _ _ former latter => exact (former.append latter).append (.single rfl)
  | sign _ _ _ _ ih | notNull _ _ ih => exact ih.append (.single rfl)
  | doubleNot _ _ ih => exact (ih.append (.single rfl)).append (.single rfl)
  | fieldAccess _ _ names ih => exact ih.append (.cons (name names) (.single rfl))
  | methodCall _ _ names _ ih given =>
      exact (ih.append (given.cons (name names))).append (.single rfl)
  | number | boolean | null | string => exact .single rfl
  | identifier names => exact .single (name names)
  | call names _ given | structInstance names _ given | initOf _ names _ given =>
      exact (given.cons (name names)).append (.single rfl)
  | arguments parts _ _ listed _ ih =>
      rw [Phrase.finished, Node.finishedOfList_eq]
      exact listed.numbered ih
  | briefField names => exact .cons (name names) (.cons rfl (.single rfl))
  | field names _ _ ih => exact (ih.cons (name names)).append (.single rfl)
  | fields parts _ _ listed _ ih =>
      rw [Phrase.finished, Node.finishedOfFields_eq]
      exact listed.numbered ih

end Grammar

namespace Session

variable {session : Session} {tree : Expr}

/-- A call that gives a tree takes the identities of the session for it. -/
theorem Idle.accepted_of_ok (idle : session.Idle) (ok : session.answer = .ok tree) :
    ∃ after, Parser.input.run (session.cursor session.nextId) = .accepted tree after ∧
      after.nextId = session.next.nextId := by
  have level : session.nesting + Parser.nestingLimit = Parser.nestingLimit := by
    rw [idle.closed, Nat.zero_add]
  rw [answer] at ok
  rw [Session.next]
  cases called : session.parse with
  | error stop last =>
      rw [called] at ok
      cases ok
  | ok given last =>
      rw [called] at ok
      cases ok
      obtain ⟨after, accepted, leads⟩ := Mirrors.accepted_of_ok Mirrors.input level called
      exact ⟨after, accepted, leads.ids.symm⟩

theorem Idle.numbered (idle : session.Idle) (ok : session.answer = .ok tree) :
    Numbered tree.finished session.nextId session.next.nextId := by
  obtain ⟨after, accepted, next⟩ := idle.accepted_of_ok ok
  obtain ⟨accepted, _⟩ := Parser.accepted_complete accepted
  obtain ⟨tokens, _, built⟩ := (Parser.withLeft_building _).1 _ _ _ accepted
  rw [← next]
  exact built.numbered

end Session

/-- A node has a greater identity than the nodes below it. -/
theorem Numbered.below {tree : Expr} {first next : Nat} {node : Node}
    (numbered : Numbered tree.finished first next) (member : node ∈ tree.finished) :
    ∀ below ∈ node.children.flatMap Node.finished, below.info.id < node.info.id := by
  have inside : node.finished <:+: tree.finished :=
    @Node.finished_infix (.expression tree) node member
  rw [Node.finished_eq] at inside
  exact numbered.lt_of_infix inside

/-- The root is the last node that takes an identity. -/
theorem Numbered.next_eq {tree : Expr} {first next : Nat}
    (numbered : Numbered tree.finished first next) : next = tree.info.id + 1 := by
  have whole : tree.finished = (Node.expression tree).children.flatMap Node.finished ++
      [.expression tree] := Node.finished_eq (.expression tree)
  have count := numbered.count
  have ids := numbered.ids
  rw [whole] at count ids
  rw [List.length_append, List.length_singleton] at count ids
  rw [List.map_append, List.range'_concat] at ids
  have last := (List.append_inj' ids rfl).2
  have root : tree.info.id = _ := List.head_eq_of_cons_eq last
  omega

namespace Session

/-- Whatever source a session reads and however often it was called: when the next call gives a
tree, the nodes of the tree have the identities from the next free one of the session on, in the
order in which they are finished. -/
theorem answer_numbered (source : String) :
    (ofSource source).nextId = 1 ∧
      ∀ (calls : Nat) (tree : Expr), ((ofSource source).after calls).answer = .ok tree →
        let session := (ofSource source).after calls
        let ids := tree.finished.map fun node => node.info.id
        ids = List.range' session.nextId ids.length ∧ ids.Nodup ∧ 0 ∉ ids ∧
          (∀ node ∈ tree.finished, ∀ below ∈ node.children.flatMap Node.finished,
            below.info.id < node.info.id) ∧
          session.next.nextId = tree.info.id + 1 := by
  refine ⟨rfl, fun calls tree ok => ?_⟩
  have idle : ((ofSource source).after calls).Idle := (idle_ofTokens _).after calls
  generalize (ofSource source).after calls = session at idle ok
  have numbered := idle.numbered ok
  intro session' ids
  have exactly : ids = List.range' session.nextId ids.length := by
    rw [List.length_map]
    exact numbered.ids
  refine ⟨exactly, ?_, ?_, fun node => numbered.below, numbered.next_eq⟩
  · rw [exactly]
    exact List.nodup_range'
  · rw [exactly]
    intro zero
    have positive := idle.positive
    have bound := (List.mem_range'_1.mp zero).1
    omega

/-- The first call reads a name and fails, so the second one begins with the identity two. It reads
a pair of negations and a field that stands for its own value. -/
theorem answer_numbered_secondCall :
    let session := (ofSource "x f(!!b, P{G})").after 1
    ∃ tree, session.answer = .ok tree ∧
      (tree.finished.map fun node => node.info.id) = [2, 3, 4, 5, 6, 7, 8, 9, 10, 11] ∧
      session.next.nextId = 12 := by
  intro session
  have begun : session.nextId = 2 := by decide +kernel
  have read : (session.answer.toOption.map fun tree => (tree.finished.length, tree.info.id)) =
      some (10, 11) := by decide +kernel
  obtain ⟨tree, ok, both⟩ := exists_ok_of_toOption read
  obtain ⟨count, root⟩ := Prod.mk.inj both
  obtain ⟨exactly, _, _, _, next⟩ := (answer_numbered "x f(!!b, P{G})").2 1 tree ok
  refine ⟨tree, ok, ?_, by rw [next, root]⟩
  rw [exactly, List.length_map, count]
  exact congrArg (List.range' · 10) begun

end Session
end ContractExpr
