import ContractExpr.Proofs.Grammar

/-! # Derivations of alike trees

A run of tokens that stands for a tree stands for every tree alike to it: the grammar says nothing
about what nodes carry.
-/

set_option autoImplicit false

namespace ContractExpr.Grammar

open Token

namespace Phrase

inductive Alike : Phrase → Phrase → Prop where
  | expression {tree other : Expr} (same : tree.alike other = true) :
      Alike (.expression tree) (.expression other)
  | chain (least : Nat) {tree other : Expr} (same : tree.alike other = true) :
      Alike (.chain least tree) (.chain least other)
  | signed {tree other : Expr} (same : tree.alike other = true) :
      Alike (.signed tree) (.signed other)
  | suffixed {tree other : Expr} (same : tree.alike other = true) :
      Alike (.suffixed tree) (.suffixed other)
  | primary {tree other : Expr} (same : tree.alike other = true) :
      Alike (.primary tree) (.primary other)
  | arguments {trees others : List Expr} (same : Expr.alikeLists trees others = true) :
      Alike (.arguments trees) (.arguments others)
  | field {entry other : Field Expr} (same : Expr.AlikeFields entry other) :
      Alike (.field entry) (.field other)
  | fields {entries others : List (Field Expr)} (same : Expr.alikeFields entries others = true) :
      Alike (.fields entries) (.fields others)

end Phrase

theorem entries_alike {α : Type} {alike : α → α → Prop} {stands : α → List Kind → Prop}
    {others : List α} (entries : List (α × List Kind))
    (each : ∀ entry ∈ entries, ∀ other, alike entry.1 other → stands other entry.2)
    (same : List.Forall₂ alike (entries.map Prod.fst) others) :
    ∃ entries' : List (α × List Kind), entries'.map Prod.fst = others ∧
      entries'.map Prod.snd = entries.map Prod.snd ∧
        ∀ entry ∈ entries', stands entry.1 entry.2 := by
  induction entries generalizing others with
  | nil =>
      cases same
      exact ⟨[], rfl, rfl, by simp⟩
  | cons first rest ih =>
      rw [List.map_cons] at same
      cases same with
      | @cons _ other _ others near further =>
          obtain ⟨entries', values, runs, all⟩ :=
            ih (fun entry member => each entry (List.mem_cons_of_mem _ member)) further
          have front := each first List.mem_cons_self other near
          refine ⟨(other, first.2) :: entries', ?_, ?_, List.forall_mem_cons.mpr ⟨front, all⟩⟩
          · rw [List.map_cons, values]
          · rw [List.map_cons, List.map_cons, runs]

/-- What a run of tokens stands for is fixed up to what nodes carry, which is free. -/
theorem Derives.alike {brief : Bool} {left : Nat} {phrase other : Phrase} {kinds : List Kind}
    (derived : Derives brief left phrase kinds) (same : phrase.Alike other) :
    Derives brief left other kinds := by
  induction derived generalizing other with
  | unconditional _ ih =>
      cases same with
      | expression same =>
          exact .unconditional (ih (.chain _ same))
  | conditional info _ _ _ first second third =>
      cases same with
      | expression same =>
          obtain ⟨_, _, _, info', rfl, alike₁, alike₂, alike₃⟩ := Expr.alike_conditional same
          exact .conditional info' (first (.chain _ alike₁)) (second (.chain _ alike₂))
            (third (.expression alike₃))
  | tighter below _ ih =>
      cases same with
      | chain _ same => exact .tighter below (ih (.chain _ same))
  | binary op info _ _ former latter =>
      cases same with
      | chain _ same =>
          obtain ⟨_, _, info', rfl, alike₁, alike₂⟩ := Expr.alike_binary same
          exact .binary op info' (former (.chain _ alike₁)) (latter (.chain _ alike₂))
  | operand _ ih =>
      cases same with
      | chain _ same => exact .operand (ih (.signed same))
  | sign op info leads _ ih =>
      cases same with
      | signed same =>
          obtain ⟨_, info', rfl, alike⟩ := Expr.alike_unary same
          exact .sign op info' leads (ih (.signed alike))
  | doubleNot near far _ ih =>
      cases same with
      | signed same =>
          obtain ⟨_, far', rfl, alike⟩ := Expr.alike_unary same
          obtain ⟨_, near', rfl, alike⟩ := Expr.alike_unary alike
          exact .doubleNot near' far' (ih (.signed alike))
  | unsigned _ ih =>
      cases same with
      | signed same =>
          exact .unsigned (ih (.suffixed same))
  | unsuffixed _ ih =>
      cases same with
      | suffixed same =>
          exact .unsuffixed (ih (.primary same))
  | notNull info _ ih =>
      cases same with
      | suffixed same =>
          obtain ⟨_, info', rfl, alike⟩ := Expr.alike_unary same
          exact .notNull info' (ih (.suffixed alike))
  | fieldAccess field info _ ih =>
      cases same with
      | suffixed same =>
          obtain ⟨_, field', info', rfl, alike, named⟩ := Expr.alike_fieldAccess same
          rw [← named]
          exact .fieldAccess field' info' (ih (.suffixed alike))
  | methodCall method info _ _ ih given =>
      cases same with
      | suffixed same =>
          obtain ⟨_, method', _, info', rfl, alike, named, alikes⟩ := Expr.alike_methodCall same
          rw [← named]
          exact .methodCall method' info' (ih (.suffixed alike)) (given (.arguments alikes))
  | number info read =>
      cases same with
      | primary same =>
          obtain ⟨info', rfl⟩ := Expr.alike_number same
          exact .number info' read
  | boolean value info =>
      cases same with
      | primary same =>
          obtain ⟨info', rfl⟩ := Expr.alike_boolean same
          exact .boolean value info'
  | null info =>
      cases same with
      | primary same =>
          obtain ⟨info', rfl⟩ := Expr.alike_null same
          exact .null info'
  | string content info =>
      cases same with
      | primary same =>
          obtain ⟨info', rfl⟩ := Expr.alike_string same
          exact .string content info'
  | identifier name info =>
      cases same with
      | primary same =>
          obtain ⟨info', rfl⟩ := Expr.alike_identifier same
          exact .identifier name info'
  | call function info _ given =>
      cases same with
      | primary same =>
          obtain ⟨function', _, info', rfl, named, alikes⟩ := Expr.alike_call same
          rw [← named]
          exact .call function' info' (given (.arguments alikes))
  | structInstance type info _ given =>
      cases same with
      | primary same =>
          obtain ⟨type', _, info', rfl, named, alikes⟩ := Expr.alike_structInstance same
          rw [← named]
          exact .structInstance type' info' (given (.fields alikes))
  | initOf contract info _ given =>
      cases same with
      | primary same =>
          obtain ⟨contract', _, info', rfl, named, alikes⟩ := Expr.alike_initOf same
          rw [← named]
          exact .initOf contract' info' (given (.arguments alikes))
  | group _ ih =>
      cases same with
      | primary same =>
          exact .group (ih (.expression same))
  | arguments entries _ listed ih =>
      cases same with
      | arguments same =>
          obtain ⟨entries', rfl, runs, each⟩ := entries_alike entries
            (fun entry member other alike => ih entry member (.expression alike))
            (Expr.alikeLists_iff.mp same)
          exact .arguments entries' each (by rw [runs]; exact listed)
  | briefField allowed name valueInfo info =>
      cases same with
      | @field _ other same =>
          obtain ⟨name', initializer, info'⟩ := other
          obtain ⟨named, initialized⟩ := same
          obtain ⟨valueInfo', rfl⟩ := Expr.alike_identifier initialized
          simp only at named
          rw [named]
          exact .briefField allowed name' valueInfo' info'
  | field name info _ ih =>
      cases same with
      | @field _ other same =>
          obtain ⟨name', initializer, info'⟩ := other
          obtain ⟨named, initialized⟩ := same
          simp only at named
          rw [named]
          exact .field name' info' (ih (.expression initialized))
  | fields entries _ listed ih =>
      cases same with
      | fields same =>
          obtain ⟨entries', rfl, runs, each⟩ := entries_alike entries
            (fun entry member other alike => ih entry member (.field alike))
            (Expr.alikeFields_iff.mp same)
          exact .fields entries' each (by rw [runs]; exact listed)

end ContractExpr.Grammar
