import ContractExpr.Proofs.Roundtrip.Detection
import ContractExpr.Proofs.Roundtrip.Sampled
import ContractExpr.Proofs.Sampling.Exactness
import ContractExpr.Roundtrip.Run

/-! # What a run says of its front-end

A run that ends well has checked its samples, and a run that ends with a counterexample tells the
truth about it, whatever trees were sampled and whatever test runner sampled them. The runner is
only trusted to sample trees of the right level, to stop at the first that fails, and to report a
tree that it has seen failing. The front-end may have a state as long as its answers do not depend
on it.
-/

set_option autoImplicit false

namespace ContractExpr

namespace Run

open Frontend Generator Strategy

/-! ## Test runners -/

section Runners

variable {S : Type → Type} [Strategy S] {σ : Type}

/-- The trial is called on trees in this order and judges them so. -/
inductive Tries (trial : Expr → StateM σ (Except RoundtripFailure Unit)) :
    List (Expr × Except RoundtripFailure Unit) → σ → σ → Prop where
  | none (state : σ) : Tries trial [] state state
  | call {expr : Expr} {verdict : Except RoundtripFailure Unit} {before between after : σ}
      {further : List (Expr × Except RoundtripFailure Unit)}
      (judged : trial expr before = (verdict, between)) (rest : Tries trial further between after) :
      Tries trial ((expr, verdict) :: further) before after

/-- What a trustworthy runner does with its samples. After the first sample that fails it may try
any other trees. -/
inductive Trusted (cases : Nat) (level : S Expr)
    (trial : Expr → StateM σ (Except RoundtripFailure Unit)) (before : σ) :
    List Expr → Report × σ → Prop where
  | passed {samples : List Expr} {after : σ} (few : samples.length ≤ cases)
      (sampled : ∀ sample ∈ samples, CanGive level sample)
      (calls : Tries trial (samples.map fun sample => (sample, .ok ())) before after) :
      Trusted cases level trial before samples (.passed, after)
  | failed {passing : List Expr} {last reported : Expr} {first failure : RoundtripFailure}
      {shrinking : List (Expr × Except RoundtripFailure Unit)} {after : σ}
      (few : passing.length < cases)
      (sampled : ∀ sample ∈ passing ++ [last], CanGive level sample)
      (calls : Tries trial
        (passing.map (fun sample => (sample, .ok ())) ++ (last, .error first) :: shrinking)
        before after)
      (inLevel : CanGive level reported)
      (failing : (reported, .error failure) ∈ (last, .error first) :: shrinking) :
      Trusted cases level trial before (passing ++ [last]) (.failed reported failure, after)

variable {cases : Nat} {level : S Expr} {before : σ}
  {trial : Expr → StateM σ (Except RoundtripFailure Unit)}

theorem Trusted.pass_first {sample : Expr} {between : σ} {samples : List Expr}
    {outcome : Report × σ} (can : CanGive level sample)
    (judged : trial sample before = (.ok (), between))
    (trusted : Trusted cases level trial between samples outcome) :
    Trusted (cases + 1) level trial before (sample :: samples) outcome := by
  cases trusted with
  | passed few sampled calls =>
      exact .passed (Nat.succ_le_succ few) (List.forall_mem_cons.mpr ⟨can, sampled⟩)
        (.call judged calls)
  | @failed passing last reported first failure shrinking after few sampled calls inLevel failing =>
      have tried : Tries trial ((sample :: passing).map (fun sample => (sample, .ok ())) ++
          (last, .error first) :: shrinking) before after := .call judged calls
      show Trusted _ level trial before ((sample :: passing) ++ [last]) _
      exact .failed (Nat.succ_lt_succ few) (List.forall_mem_cons.mpr ⟨can, sampled⟩) tried inLevel
        failing

theorem Trusted.of_fewer {samples : List Expr} {outcome : Report × σ}
    (trusted : Trusted cases level trial before samples outcome) :
    Trusted (cases + 1) level trial before samples outcome := by
  cases trusted with
  | passed few sampled calls => exact .passed (Nat.le_succ_of_le few) sampled calls
  | failed few sampled calls inLevel failing =>
      exact .failed (Nat.lt_succ_of_lt few) sampled calls inLevel failing

theorem Trusted.fail_first {last : Expr} {failure : RoundtripFailure} {between : σ}
    (can : CanGive level last) (judged : trial last before = (.error failure, between)) :
    Trusted (cases + 1) level trial before [last] (.failed last failure, between) := by
  have tried : Tries trial ([].map (fun sample => (sample, .ok ())) ++ [(last, .error failure)])
      before between := .call judged (.none between)
  exact .failed (Nat.zero_lt_succ cases) (List.forall_mem_singleton.mpr can) tried can
    (List.mem_singleton.mpr rfl)

theorem tryInOrder_trusted (sampler : Sampler Expr)
    (trial : Expr → StateM σ (Except RoundtripFailure Unit)) (choices : Choices)
    (left index : Nat) (before : σ) :
    ∃ samples, Trusted left sampler trial before samples
      (tryInOrder sampler trial choices left index before) := by
  induction left generalizing index before with
  | zero => exact ⟨[], .passed (Nat.le_refl _) (by simp) (.none before)⟩
  | succ left ih =>
      rw [tryInOrder]
      cases drawn : sampler.run choices index with
      | mk sample? next =>
          cases sample? with
          | none =>
              obtain ⟨samples, trusted⟩ := ih next before
              exact ⟨samples, trusted.of_fewer⟩
          | some sample =>
              have can : CanGive sampler sample := ⟨(choices, index), congrArg Prod.fst drawn⟩
              cases judged : trial sample before with
              | mk verdict between =>
                  cases verdict with
                  | ok =>
                      obtain ⟨samples, trusted⟩ := ih next between
                      simp only [bind, StateT.bind, judged]
                      exact ⟨_, trusted.pass_first can judged⟩
                  | error failure =>
                      simp only [bind, StateT.bind, judged]
                      exact ⟨_, .fail_first can judged⟩

/-- A runner that knows one tree only, and reports a simpler one if that fails as well. -/
def shrinkingTo (simpler tree : Expr) : Runner S (StateM σ) := fun _ _ trial => do
  match ← trial tree with
  | .ok () => return .passed
  | .error failure =>
    match ← trial simpler with
    | .ok () => return .failed tree failure
    | .error failure => return .failed simpler failure

theorem shrinkingTo_trusted {simpler tree : Expr} (can : CanGive level tree)
    (canSimpler : CanGive level simpler) :
    Trusted (cases + 1) level trial before [tree]
      (shrinkingTo simpler tree (cases + 1) level trial before) := by
  have few : ([] : List Expr).length < cases + 1 := Nat.zero_lt_succ cases
  have sampled : ∀ sample ∈ [tree], CanGive level sample := List.forall_mem_singleton.mpr can
  cases judged : trial tree before with
  | mk verdict between =>
      cases verdict with
      | ok =>
          simp only [shrinkingTo, bind, StateT.bind, judged]
          exact .passed (Nat.succ_le_succ (Nat.zero_le cases)) sampled
            (.call judged (.none between))
      | error failure =>
          cases again : trial simpler between with
          | mk verdict after =>
              have tried : Tries trial ([].map (fun sample => (sample, .ok ())) ++
                  [(tree, .error failure), (simpler, verdict)]) before after :=
                .call judged (.call again (.none after))
              cases verdict with
              | ok =>
                  simp only [shrinkingTo, bind, StateT.bind, judged, again]
                  exact .failed few sampled tried can List.mem_cons_self
              | error failure' =>
                  simp only [shrinkingTo, bind, StateT.bind, judged, again]
                  exact .failed few sampled tried canSimpler
                    (List.mem_cons_of_mem _ List.mem_cons_self)

end Runners

/-! ## Runs -/

section Reports

variable {S : Type → Type} [Strategy S] {σ : Type} {frontend : Frontend (StateM σ)}
  {plain : Frontend Id}

/-- In whatever state a trial was made, it judged as the front-end without a state does. -/
theorem Tries.verdicts (answers : frontend.Answers plain)
    {calls : List (Expr × Except RoundtripFailure Unit)} {before after : σ}
    (tries : Tries frontend.check calls before after) :
    ∀ call ∈ calls, plain.check call.1 = call.2 := by
  induction tries with
  | none state => simp
  | @call expr verdict before between after further judged rest ih =>
      refine List.forall_mem_cons.mpr ⟨?_, ih⟩
      rw [← answers.check expr before, judged]

theorem confirm_of_answers (answers : frontend.Answers plain) {expr : Expr}
    (failure : RoundtripFailure) {again : RoundtripFailure}
    (fails : plain.check expr = .error again) (state : σ) :
    (confirm frontend expr failure state).1 =
      .counterexample ⟨expr, plain.render expr, again⟩ := by
  rw [confirm, fst_bind, fst_bind, answers.render, answers.check, fails]
  rfl

theorem withRunner_of_generator (runner : Runner S (StateM σ)) (frontend : Frontend (StateM σ))
    {config : Config} {generator : Levels S}
    (made : Levels.ofDepth config.maxDepth config.settings = .ok generator) (state : σ) :
    (withRunner runner frontend config state).1 =
      let outcome := runner config.cases generator.top frontend.check state
      (conclude frontend config outcome.1 outcome.2).1 := by
  rw [withRunner, made]
  rfl

/-- What a trustworthy runner reports is the truth about its samples. -/
theorem Trusted.concludes (answers : frontend.Answers plain) {config : Config}
    {level : S Expr} {before : σ} {samples : List Expr} {outcome : Report × σ}
    (trusted : Trusted config.cases level frontend.check before samples outcome) :
    ((conclude frontend config outcome.1 outcome.2).1 = .ok ⟨config.cases, config.seed⟩ ∧
        ∀ sample ∈ samples, plain.check sample = .ok ()) ∨
      ∃ reported failure,
        (conclude frontend config outcome.1 outcome.2).1 =
            .error (.counterexample ⟨reported, plain.render reported, failure⟩) ∧
          plain.check reported = .error failure ∧ CanGive level reported ∧
          ∃ sample ∈ samples, plain.check sample ≠ .ok () := by
  cases trusted with
  | passed few sampled calls =>
      refine Or.inl ⟨rfl, fun sample member => ?_⟩
      exact calls.verdicts answers _ (List.mem_map_of_mem member)
  | @failed passing last reported first failure shrinking after few sampled calls inLevel failing =>
      have verdicts := calls.verdicts answers
      have fails := verdicts _ (List.mem_append_right _ failing)
      have lastFails := verdicts _ (List.mem_append_right _ (List.mem_cons_self ..))
      refine Or.inr ⟨reported, failure, ?_, fails, inLevel, last, by simp, ?_⟩
      · rw [conclude, fst_bind, confirm_of_answers answers failure fails]
        rfl
      · rw [lastFails]
        simp

section Lawful

variable [LawfulStrategy S]

theorem depth_le_of_canGive {config : Config} (positive : 0 < config.maxDepth)
    {generator : Levels S}
    (made : Levels.ofDepth config.maxDepth config.settings = .ok generator) {tree : Expr}
    (can : CanGive generator.top tree) : tree.depth ≤ config.maxDepth :=
  Nat.le_trans (depth_le_levelOf tree) ((Levels.canGive_top positive made tree).mp can).1

/-- The front-end of this library loses no tree up to a depth of fifty. -/
theorem canonical_check_of_canGive {config : Config} (positive : 0 < config.maxDepth)
    (upper : config.maxDepth ≤ 50) {generator : Levels S}
    (made : Levels.ofDepth config.maxDepth config.settings = .ok generator) {tree : Expr}
    (can : CanGive generator.top tree) : Frontend.canonical.check tree = .ok () := by
  have shallow := depth_le_of_canGive positive made can
  have fits : 2 * tree.depth ≤ 2 * 50 := Nat.mul_le_mul_left 2 (Nat.le_trans shallow upper)
  exact Expr.checkRoundtrip_of_keeps ((Levels.canGive_top positive made tree).mp can).2 fits

end Lawful

end Reports

/-- Whatever is sampled, a run judges its front-end rightly. Without levels to sample from it says
so and leaves the front-end alone. Otherwise it ends well exactly if all samples survive, and if not
it gives a tree that is not too deep, with its rendering and its failure. It always reproduces a
failure, and finds none in the front-end of this library up to a depth of fifty. -/
theorem withRunner_judges {S : Type → Type} [Strategy S] [LawfulStrategy S] {σ : Type}
    {frontend : Frontend (StateM σ)} {plain : Frontend Id} (answers : frontend.Answers plain)
    (runner : Runner S (StateM σ)) (config : Config) (before : σ) (samples : List Expr)
    (trusted : ∀ generator : Levels S,
      Levels.ofDepth config.maxDepth config.settings = .ok generator →
      Trusted config.cases generator.top frontend.check before samples
        (runner config.cases generator.top frontend.check before)) :
    (config.maxDepth = 0 →
      withRunner runner frontend config before =
        (.error (.generator (.invalidDepth 0)), before)) ∧
      (0 < config.maxDepth →
        ((withRunner runner frontend config before).1 = .ok ⟨config.cases, config.seed⟩ ↔
          ∀ sample ∈ samples, plain.check sample = .ok ()) ∧
        ((∃ sample ∈ samples, plain.check sample ≠ .ok ()) →
          ∃ found, (withRunner runner frontend config before).1 = .error (.counterexample found) ∧
            found.expr.depth ≤ config.maxDepth ∧ found.rendered = plain.render found.expr ∧
            plain.check found.expr = .error found.failure)) ∧
      (∀ failure, (withRunner runner frontend config before).1 ≠ .error (.notReproduced failure)) ∧
      (plain = Frontend.canonical → 1 ≤ config.maxDepth → config.maxDepth ≤ 50 →
        (withRunner runner frontend config before).1 = .ok ⟨config.cases, config.seed⟩) := by
  rcases Nat.eq_zero_or_pos config.maxDepth with zero | positive
  · have refused : withRunner runner frontend config before =
        (.error (.generator (.invalidDepth 0)), before) := by
      rw [withRunner, zero]
      rfl
    refine ⟨fun _ => refused, by omega, ?_, by omega⟩
    intro failure same
    rw [refused] at same
    cases same
  · obtain ⟨generator, _, made, _⟩ := Levels.exists_ofDepth (S := S) positive config.settings
    have told := withRunner_of_generator runner frontend made before
    rcases (trusted _ made).concludes answers with
      ⟨ended, pass⟩ | ⟨reported, failure, ended, fails, can, sample, member, sampleFails⟩
    · rw [told, ended]
      refine ⟨by omega, fun _ => ⟨⟨fun _ => pass, fun _ => rfl⟩, ?_⟩, ?_, fun _ _ _ => rfl⟩
      · rintro ⟨sample, member, sampleFails⟩
        exact absurd (pass sample member) sampleFails
      · intro failure same
        cases same
    · have shallow := depth_le_of_canGive positive made can
      rw [told, ended]
      refine ⟨by omega, fun _ => ⟨⟨?_, ?_⟩, fun _ => ⟨_, rfl, shallow, rfl, fails⟩⟩, ?_, ?_⟩
      · intro same
        cases same
      · intro pass
        exact absurd (pass sample member) sampleFails
      · intro failure same
        cases same
      · rintro rfl _ upper
        rw [canonical_check_of_canGive positive upper made can] at fails
        cases fails

def counting (plain : Frontend Id) : Frontend (StateM Nat) where
  render expr := fun count => (plain.render expr, count + 1)
  parse source := fun count => (plain.parse source, count + 1)

theorem counting_answers (plain : Frontend Id) : (counting plain).Answers plain :=
  ⟨fun _ _ => rfl, fun _ _ => rfl⟩

/-- A run in which all samples pass, and one whose only sample fails and is reported as a simpler
tree. -/
theorem withRunner_judges_counting :
    let config : Config := ⟨3, 50, 4, 7⟩
    let runner : Runner Sampler (StateM Nat) := inOrder (Choices.ofSeed config.seed)
    let null := Expr.null Info.built
    let signed := Expr.unary .negate null Info.built
    let shrinking : Runner Sampler (StateM Nat) := shrinkingTo null signed
    (∃ samples,
      (∀ generator : Generator, Levels.ofDepth 50 config.settings = .ok generator →
        Trusted 3 generator.top (counting Frontend.canonical).check 0 samples
          (runner 3 generator.top (counting Frontend.canonical).check 0)) ∧
        (∀ sample ∈ samples, Frontend.canonical.check sample = .ok ()) ∧
        (start (counting Frontend.canonical) config 0).1 = .ok ⟨3, 7⟩) ∧
      (∀ generator : Generator, Levels.ofDepth 50 config.settings = .ok generator →
        Trusted 3 generator.top (counting Frontend.unbalanced).check 0 [signed]
          (shrinking 3 generator.top (counting Frontend.unbalanced).check 0)) ∧
      Frontend.unbalanced.check signed ≠ .ok () ∧
      ∃ found, (withRunner shrinking (counting Frontend.unbalanced) config 0).1 =
          .error (.counterexample found) ∧
        found.expr.depth ≤ 50 ∧ found.rendered = found.expr.render ++ ")" ∧
        Frontend.unbalanced.check found.expr = .error found.failure := by
  intro config runner null signed shrinking
  obtain ⟨generator, _, made, _⟩ :=
    Levels.exists_ofDepth (S := Sampler) (show 0 < 50 by decide) config.settings
  have unique {generator' : Generator}
      (made' : Levels.ofDepth 50 config.settings = .ok generator') : generator = generator' :=
    Except.ok.inj (made.symm.trans made')
  refine ⟨?passing, ?failing⟩
  case passing =>
    obtain ⟨samples, tried⟩ := tryInOrder_trusted generator.top
      (counting Frontend.canonical).check (Choices.ofSeed 7) 3 0 0
    have trusted : ∀ generator : Generator, Levels.ofDepth 50 config.settings = .ok generator →
        Trusted 3 generator.top (counting Frontend.canonical).check 0 samples
          (runner 3 generator.top (counting Frontend.canonical).check 0) := by
      intro generator' made'
      obtain rfl := unique made'
      exact tried
    have judged := withRunner_judges (counting_answers Frontend.canonical) runner config 0 samples
      trusted
    have ended := judged.2.2.2 rfl (by decide) (by decide)
    exact ⟨samples, trusted, (judged.2.1 (by decide)).1.mp ended, ended⟩
  case failing =>
    have simple : Keeps config.settings null := keeps_null.mpr rfl
    have kept : Keeps config.settings signed := keeps_unary.mpr ⟨rfl, simple⟩
    have trusted : ∀ generator : Generator, Levels.ofDepth 50 config.settings = .ok generator →
        Trusted 3 generator.top (counting Frontend.unbalanced).check 0 [signed]
          (shrinking 3 generator.top (counting Frontend.unbalanced).check 0) := by
      intro generator' made'
      have given := Levels.canGive_top (by decide) made'
      exact shrinkingTo_trusted ((given signed).mpr ⟨by decide, kept⟩)
        ((given null).mpr ⟨by decide, simple⟩)
    obtain ⟨error, fails, _⟩ := check_unbalanced (Expr.wellNamed_of_keeps kept) (by decide)
    have sampleFails : Frontend.unbalanced.check signed ≠ .ok () := by
      rw [fails]
      intro same
      cases same
    have judged := withRunner_judges (counting_answers Frontend.unbalanced) shrinking config 0
      [signed] trusted
    exact ⟨trusted, sampleFails,
      (judged.2.1 (by decide)).2 ⟨signed, List.mem_singleton.mpr rfl, sampleFails⟩⟩

theorem tryInOrder_of_passes {sampler : Sampler Expr}
    {trial : Expr → Id (Except RoundtripFailure Unit)}
    (passes : ∀ tree, CanGive sampler tree → trial tree = .ok ()) (choices : Choices)
    (left index : Nat) :
    tryInOrder sampler trial choices left index = Report.passed := by
  induction left generalizing index with
  | zero => rfl
  | succ left ih =>
      rw [tryInOrder]
      cases drawn : sampler.run choices index with
      | mk sample? next =>
          cases sample? with
          | none => exact ih next
          | some sample =>
              have judged : trial sample = .ok () :=
                passes sample ⟨(choices, index), congrArg Prod.fst drawn⟩
              rw [← ih next]
              simp only [judged]
              rfl

/-- With any seed a run of this library finds no fault in its own front-end. -/
theorem start_canonical (config : Config) (lower : 1 ≤ config.maxDepth)
    (upper : config.maxDepth ≤ 50) :
    start Frontend.canonical config = Except.ok ⟨config.cases, config.seed⟩ := by
  obtain ⟨generator, _, made, _⟩ := Levels.exists_ofDepth (S := Sampler) lower config.settings
  have passes : ∀ tree, CanGive generator.top tree → Frontend.canonical.check tree = .ok () :=
    fun tree can => canonical_check_of_canGive lower upper made can
  have tried := tryInOrder_of_passes passes (Choices.ofSeed config.seed) config.cases 0
  rw [start, withRunner, made]
  exact congrArg (conclude Frontend.canonical config) tried

end Run
end ContractExpr
