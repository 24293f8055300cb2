import ContractExpr.Expr.Layout
import ContractExpr.Expr.Node
import Mathlib.Data.List.Forall2

/-! # Trees that mean the same

Two trees are alike exactly when they become one tree once everything their nodes carry is
replaced by the placeholder. So being alike is an equivalence, and whatever does not look at what
nodes carry, the layout first of all, cannot tell alike trees apart.
-/

set_option autoImplicit false

namespace ContractExpr.Expr

def bare (expr : Expr) : Expr := expr.mapInfo fun _ => Info.built

theorem mapInfoOfList_eq (f : Info → Info) (trees : List Expr) :
    mapInfoOfList f trees = trees.map (mapInfo f) := by
  induction trees with
  | nil => rfl
  | cons first rest ih => rw [mapInfoOfList, ih, List.map_cons]

theorem mapInfoOfFields_eq (f : Info → Info) (entries : List (Field Expr)) :
    mapInfoOfFields f entries = entries.map fun entry =>
      ⟨entry.name.mapInfo f, entry.initializer.mapInfo f, f entry.info⟩ := by
  induction entries with
  | nil => rfl
  | cons first rest ih => rw [mapInfoOfFields, ih, List.map_cons]

mutual

theorem alike_iff_mapInfo (left right : Expr) :
    left.alike right = true ↔
      left.mapInfo (fun _ => Info.built) = right.mapInfo fun _ => Info.built := by
  cases left with
  | number value info => cases right <;> simp [alike, mapInfo]
  | boolean value info => cases right <;> simp [alike, mapInfo]
  | null info => cases right <;> simp [alike, mapInfo]
  | string content info => cases right <;> simp [alike, mapInfo]
  | identifier name info => cases right <;> simp [alike, mapInfo]
  | unary op operand info =>
      cases right <;> simp [alike, mapInfo, alike_iff_mapInfo operand]
  | binary op first second info =>
      cases right <;>
        simp [alike, mapInfo, alike_iff_mapInfo first, alike_iff_mapInfo second, and_assoc]
  | conditional condition consequent alternative info =>
      cases right <;>
        simp [alike, mapInfo, alike_iff_mapInfo condition, alike_iff_mapInfo consequent,
          alike_iff_mapInfo alternative, and_assoc]
  | initOf contract arguments info =>
      cases right <;> simp [alike, mapInfo, Name.mapInfo, alikeLists_iff_mapInfo arguments]
  | methodCall receiver method arguments info =>
      cases right <;>
        simp [alike, mapInfo, Name.mapInfo, alike_iff_mapInfo receiver,
          alikeLists_iff_mapInfo arguments, and_assoc]
  | fieldAccess aggregate field info =>
      cases right <;> simp [alike, mapInfo, Name.mapInfo, alike_iff_mapInfo aggregate]
  | call function arguments info =>
      cases right <;> simp [alike, mapInfo, Name.mapInfo, alikeLists_iff_mapInfo arguments]
  | structInstance type fields info =>
      cases right <;> simp [alike, mapInfo, Name.mapInfo, alikeFields_iff_mapInfo fields]

theorem alikeLists_iff_mapInfo (left right : List Expr) :
    alikeLists left right = true ↔
      mapInfoOfList (fun _ => Info.built) left = mapInfoOfList (fun _ => Info.built) right := by
  cases left with
  | nil => cases right <;> simp [alikeLists, mapInfoOfList]
  | cons first rest =>
      cases right <;>
        simp [alikeLists, mapInfoOfList, alike_iff_mapInfo first, alikeLists_iff_mapInfo rest]

theorem alikeFields_iff_mapInfo (left right : List (Field Expr)) :
    alikeFields left right = true ↔
      mapInfoOfFields (fun _ => Info.built) left =
        mapInfoOfFields (fun _ => Info.built) right := by
  cases left with
  | nil => cases right <;> simp [alikeFields, mapInfoOfFields]
  | cons first rest =>
      obtain ⟨name, initializer, info⟩ := first
      cases right with
      | nil => simp [alikeFields, mapInfoOfFields]
      | cons first' rest' =>
          obtain ⟨name', initializer', info'⟩ := first'
          simp [alikeFields, mapInfoOfFields, Name.mapInfo, alike_iff_mapInfo initializer,
            alikeFields_iff_mapInfo rest, and_assoc]

end

theorem alike_iff_bare (left right : Expr) :
    left.alike right = true ↔ left.bare = right.bare := alike_iff_mapInfo left right

@[simp]
theorem alike_refl (expr : Expr) : expr.alike expr = true := by
  rw [alike_iff_bare]

theorem alike_symm {left right : Expr} (same : left.alike right = true) :
    right.alike left = true := by
  rw [alike_iff_bare] at same ⊢
  exact same.symm

theorem alike_trans {first second third : Expr} (near : first.alike second = true)
    (far : second.alike third = true) : first.alike third = true := by
  rw [alike_iff_bare] at near far ⊢
  exact near.trans far

/-! ## Lists of alike trees -/

theorem alikeLists_iff {trees others : List Expr} :
    alikeLists trees others = true ↔
      List.Forall₂ (fun tree other => tree.alike other = true) trees others := by
  induction trees generalizing others with
  | nil => cases others <;> simp [alikeLists]
  | cons first rest ih => cases others <;> simp [alikeLists, ih]

def AlikeFields (entry other : Field Expr) : Prop :=
  entry.name.text = other.name.text ∧ entry.initializer.alike other.initializer = true

theorem alikeFields_iff {entries others : List (Field Expr)} :
    alikeFields entries others = true ↔ List.Forall₂ AlikeFields entries others := by
  induction entries generalizing others with
  | nil => cases others <;> simp [alikeFields]
  | cons first rest ih => cases others <;> simp [alikeFields, AlikeFields, ih]

/-! ## What a tree is alike to -/

section Inversion

variable {other : Expr} {info : Info}

theorem alike_number {value : Number} (same : (number value info).alike other = true) :
    ∃ info', other = number value info' := by
  cases other <;> simp_all [alike]

theorem alike_boolean {value : Bool} (same : (boolean value info).alike other = true) :
    ∃ info', other = boolean value info' := by
  cases other <;> simp_all [alike]

theorem alike_null (same : (null info).alike other = true) : ∃ info', other = null info' := by
  cases other <;> simp_all [alike]

theorem alike_string {content : String} (same : (string content info).alike other = true) :
    ∃ info', other = string content info' := by
  cases other <;> simp_all [alike]

theorem alike_identifier {name : String} (same : (identifier name info).alike other = true) :
    ∃ info', other = identifier name info' := by
  cases other <;> simp_all [alike]

theorem alike_unary {op : UnaryOp} {operand : Expr}
    (same : (unary op operand info).alike other = true) :
    ∃ operand' info', other = unary op operand' info' ∧ operand.alike operand' = true := by
  cases other <;> simp_all [alike]

theorem alike_binary {op : BinaryOp} {left right : Expr}
    (same : (binary op left right info).alike other = true) :
    ∃ left' right' info', other = binary op left' right' info' ∧ left.alike left' = true ∧
      right.alike right' = true := by
  cases other <;> grind [alike]

theorem alike_conditional {condition consequent alternative : Expr}
    (same : (conditional condition consequent alternative info).alike other = true) :
    ∃ condition' consequent' alternative' info',
      other = conditional condition' consequent' alternative' info' ∧
        condition.alike condition' = true ∧ consequent.alike consequent' = true ∧
          alternative.alike alternative' = true := by
  cases other <;> grind [alike]

theorem alike_initOf {contract : Name} {arguments : List Expr}
    (same : (initOf contract arguments info).alike other = true) :
    ∃ contract' arguments' info', other = initOf contract' arguments' info' ∧
      contract'.text = contract.text ∧ alikeLists arguments arguments' = true := by
  cases other <;> grind [alike]

theorem alike_methodCall {receiver : Expr} {method : Name} {arguments : List Expr}
    (same : (methodCall receiver method arguments info).alike other = true) :
    ∃ receiver' method' arguments' info', other = methodCall receiver' method' arguments' info' ∧
      receiver.alike receiver' = true ∧ method'.text = method.text ∧
        alikeLists arguments arguments' = true := by
  cases other <;> grind [alike]

theorem alike_fieldAccess {aggregate : Expr} {field : Name}
    (same : (fieldAccess aggregate field info).alike other = true) :
    ∃ aggregate' field' info', other = fieldAccess aggregate' field' info' ∧
      aggregate.alike aggregate' = true ∧ field'.text = field.text := by
  cases other <;> grind [alike]

theorem alike_call {function : Name} {arguments : List Expr}
    (same : (call function arguments info).alike other = true) :
    ∃ function' arguments' info', other = call function' arguments' info' ∧
      function'.text = function.text ∧ alikeLists arguments arguments' = true := by
  cases other <;> grind [alike]

theorem alike_structInstance {type : Name} {fields : List (Field Expr)}
    (same : (structInstance type fields info).alike other = true) :
    ∃ type' fields' info', other = structInstance type' fields' info' ∧
      type'.text = type.text ∧ alikeFields fields fields' = true := by
  cases other <;> grind [alike]

end Inversion

/-! ## What the layout cannot see -/

theorem precedence_mapInfo (f : Info → Info) (expr : Expr) :
    (expr.mapInfo f).precedence = expr.precedence := by
  cases expr <;> rfl

mutual

theorem layout_mapInfo (f : Info → Info) (expr : Expr) :
    (expr.mapInfo f).layout = expr.layout := by
  cases expr with
  | number | boolean | null | string | identifier => simp [mapInfo, layout]
  | unary op operand info =>
      simp [mapInfo, layout, precedence_mapInfo, layout_mapInfo f operand]
  | binary op left right info =>
      simp [mapInfo, layout, precedence_mapInfo, layout_mapInfo f left, layout_mapInfo f right]
  | conditional condition consequent alternative info =>
      simp [mapInfo, layout, precedence_mapInfo, layout_mapInfo f condition,
        layout_mapInfo f consequent, layout_mapInfo f alternative]
  | initOf contract arguments info =>
      simp [mapInfo, layout, Name.mapInfo, layoutOfArguments_mapInfo f arguments]
  | methodCall receiver method arguments info =>
      simp [mapInfo, layout, Name.mapInfo, precedence_mapInfo, layout_mapInfo f receiver,
        layoutOfArguments_mapInfo f arguments]
  | fieldAccess aggregate field info =>
      simp [mapInfo, layout, Name.mapInfo, precedence_mapInfo, layout_mapInfo f aggregate]
  | call function arguments info =>
      simp [mapInfo, layout, Name.mapInfo, layoutOfArguments_mapInfo f arguments]
  | structInstance type fields info =>
      simp [mapInfo, layout, Name.mapInfo, layoutOfFields_mapInfo f fields]

theorem layoutOfArguments_mapInfo (f : Info → Info) (arguments : List Expr) :
    layoutOfArguments (mapInfoOfList f arguments) = layoutOfArguments arguments := by
  cases arguments with
  | nil => simp [mapInfoOfList, layoutOfArguments]
  | cons first rest =>
      simp [mapInfoOfList, layoutOfArguments, layout_mapInfo f first,
        layoutOfFurther_mapInfo f rest]

theorem layoutOfFurther_mapInfo (f : Info → Info) (arguments : List Expr) :
    layoutOfFurther (mapInfoOfList f arguments) = layoutOfFurther arguments := by
  cases arguments with
  | nil => simp [mapInfoOfList, layoutOfFurther]
  | cons next rest =>
      simp [mapInfoOfList, layoutOfFurther, layout_mapInfo f next, layoutOfFurther_mapInfo f rest]

theorem layoutOfFields_mapInfo (f : Info → Info) (fields : List (Field Expr)) :
    layoutOfFields (mapInfoOfFields f fields) = layoutOfFields fields := by
  cases fields with
  | nil => simp [mapInfoOfFields, layoutOfFields]
  | cons first rest =>
      obtain ⟨name, initializer, info⟩ := first
      simp [mapInfoOfFields, layoutOfFields, Name.mapInfo, layout_mapInfo f initializer,
        layoutOfFurtherFields_mapInfo f rest]

theorem layoutOfFurtherFields_mapInfo (f : Info → Info) (fields : List (Field Expr)) :
    layoutOfFurtherFields (mapInfoOfFields f fields) = layoutOfFurtherFields fields := by
  cases fields with
  | nil => simp [mapInfoOfFields, layoutOfFurtherFields]
  | cons next rest =>
      obtain ⟨name, initializer, info⟩ := next
      simp [mapInfoOfFields, layoutOfFurtherFields, Name.mapInfo, layout_mapInfo f initializer,
        layoutOfFurtherFields_mapInfo f rest]

end

theorem layout_eq_of_alike {left right : Expr} (same : left.alike right = true) :
    left.layout = right.layout := by
  rw [alike_iff_bare] at same
  calc left.layout = left.bare.layout := (layout_mapInfo _ left).symm
    _ = right.bare.layout := by rw [same]
    _ = right.layout := layout_mapInfo _ right

theorem render_eq_of_alike {left right : Expr} (same : left.alike right = true) :
    left.render = right.render := by
  rw [render, render, layout_eq_of_alike same]

end ContractExpr.Expr
