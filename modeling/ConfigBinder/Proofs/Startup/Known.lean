/-
More known types only help.

A type that is named as known takes any text, and so do its arrays, whatever level they have.
So a name that resolves in two startups, one of which knows more types, either has one and
the same converter in both or takes any text in the one that knows more
(`resolve_of_subset`).  A pair that fails there fails for its value alone, since there is none,
and then it fails in the other startup too: for the same reason, or because its type is unknown.
That is what `Eases` says of the two problems.

What is registered does not hang on types.  A startup that succeeds has no problems, so it
has none with more types known, and then it goes on with the same mappings.
-/
import ConfigBinder.Proofs.Startup.Converters
import ConfigBinder.Proofs.Startup.Provided
import ConfigBinder.Proofs.Startup.Registration
import ConfigBinder.Proofs.Startup.Report

namespace ConfigBinder

open QualifiedName

namespace CommandLine

variable {o : BuildOutput} {few many : List String}

/-! ### What resolves -/

/-- With more types known a name resolves as before, or to an array of `anything`, which takes any
text. -/
theorem resolve_of_subset (h : few ⊆ many) (type : String) :
    (standaloneTypes o many).resolve type = (standaloneTypes o few).resolve type ∨
      ∃ n, (standaloneTypes o many).resolve type = some (Converter.arrays .anything n) := by
  obtain ⟨base, n, hbase, rfl⟩ := exists_arrayName type
  rw [KnownTypes.resolve_arrayName, KnownTypes.resolve_arrayName,
    KnownTypes.resolve_of_not_endsInBrackets _ hbase,
    KnownTypes.resolve_of_not_endsInBrackets _ hbase]
  have hmany := get?_standaloneTypes o many base
  have hfew := get?_standaloneTypes o few base
  by_cases hmem : base ∈ many ∨ ⟨base⟩ ∈ o.providedTypes
  · rw [if_pos hmem] at hmany
    exact Or.inr ⟨n, by rw [KnownTypes.element?_of_get?_eq_some hmany, Option.map_some]⟩
  · have hmem' : ¬ (base ∈ few ∨ ⟨base⟩ ∈ o.providedTypes) := fun hc =>
      hmem (hc.imp_left fun hbase => h hbase)
    rw [if_neg hmem] at hmany
    rw [if_neg hmem'] at hfew
    rw [KnownTypes.element?_of_get?_eq_none hmany, KnownTypes.element?_of_get?_eq_none hfew]
    exact Or.inl rfl

/-- Which names are known decides what resolves, not their order or how often they are
named. -/
theorem resolve_of_same (h : ∀ name, name ∈ few ↔ name ∈ many) :
    (standaloneTypes o few).resolve = (standaloneTypes o many).resolve := by
  refine KnownTypes.resolve_congr fun base _ => ?_
  rw [get?_standaloneTypes, get?_standaloneTypes]
  simp only [h]

/-! ### What is wrong

What is wrong with a pair hangs on its value and on what its type resolves to, and that is the
same in both startups or takes any text in the one that knows more.
-/

/-- A problem is as before, or the value of a type that was unknown is found missing. -/
def Eases (before after : PropertyProblem) : Prop :=
  after = before ∨ ∃ property type,
    before = .unknownType property type ∧ after = .missing property type

theorem Eases.pair_eq {x y : PropertyProblem} (h : Eases x y) : x.pair = y.pair := by
  rcases h with rfl | ⟨property, type, rfl, rfl⟩
  · rfl
  · rfl

/-- When more types are known, what `Befalls` a pair comes of what befell it before, as `Eases` has
it. -/
theorem exists_befalls_of_subset (h : few ⊆ many) {values : ConfigValues}
    {property type : String} {y : PropertyProblem}
    (hy : PropertyProblem.Befalls (standaloneTypes o many).resolve values property type y) :
    ∃ x, PropertyProblem.Befalls (standaloneTypes o few).resolve values property type x ∧
      Eases x y := by
  rcases resolve_of_subset (o := o) h type with hsame | ⟨n, hany⟩
  · exact ⟨y, hy.of_resolve_eq hsame, Or.inl rfl⟩
  · cases hy with
    | unknownType hnone => exact nomatch hnone.symm.trans hany
    | conversion converter raw reason hsome _ hrefused =>
        obtain rfl := Option.some.inj (hsome.symm.trans hany)
        rw [Converter.arrays_anything] at hrefused
        exact nomatch hrefused
    | missing converter hsome hblank =>
        cases hfew : (standaloneTypes o few).resolve type with
        | none => exact ⟨_, .unknownType hfew, Or.inr ⟨property, type, rfl, rfl⟩⟩
        | some before => exact ⟨_, .missing before hfew hblank, Or.inl rfl⟩

private theorem exists_mem_problems_of_subset (h : few ⊆ many) {types : PropertyTypes}
    {values : ConfigValues} {y : PropertyProblem}
    (hy : y ∈ types.problems (standaloneTypes o many).resolve values) :
    ∃ x ∈ types.problems (standaloneTypes o few).resolve values, Eases x y := by
  obtain ⟨hasks, hbefalls⟩ := PropertyTypes.mem_problems_iff_befalls.mp hy
  obtain ⟨x, hx, heases⟩ := exists_befalls_of_subset h hbefalls
  obtain ⟨hproperty, htype⟩ := Prod.mk.inj heases.pair_eq
  refine ⟨x, PropertyTypes.mem_problems_iff_befalls.mpr ?_, heases⟩
  rw [hproperty, htype]
  exact ⟨hasks, hx⟩

/-! ### What a startup comes to -/

theorem replay_eq (o : BuildOutput) (values : OrderedMap String String) (known : List String) :
    replay o values known =
      (((Recorder.fresh (standaloneTypes o known).resolve values.get?).replay o.plan).2.map
        fun _ => ((Recorder.fresh (standaloneTypes o known).resolve values.get?).replay
          o.plan).1.registered.size) := by
  unfold replay
  dsimp only
  rcases (Recorder.fresh (standaloneTypes o known).resolve values.get?).replay o.plan with
    ⟨after, outcome⟩
  cases outcome with
  | ok _ => rfl
  | error e => rfl

/-- Startups with one list of problems come to the same. -/
theorem replay_congr {values : OrderedMap String String}
    (h : o.plan.propertyTypes.problems (standaloneTypes o few).resolve values.get? =
      o.plan.propertyTypes.problems (standaloneTypes o many).resolve values.get?) :
    replay o values few = replay o values many := by
  have hreplay : ((Recorder.fresh (standaloneTypes o few).resolve values.get?).replay
      o.plan).1.registered = ((Recorder.fresh (standaloneTypes o many).resolve values.get?).replay
        o.plan).1.registered ∧ _ := Recorder.replay_congr rfl h
  rw [replay_eq, replay_eq, hreplay.1, hreplay.2]

theorem problems_of_replay_ok {values : OrderedMap String String} {known : List String} {n : Nat}
    (h : replay o values known = .ok n) :
    o.plan.propertyTypes.problems (standaloneTypes o known).resolve values.get? = [] := by
  refine List.eq_nil_iff_forall_not_mem.mpr fun x hx => ?_
  obtain ⟨problems, herror, -⟩ := replay_reports_iff.mpr hx
  exact nomatch h.symm.trans herror

/-- The problem is one of those that `replay` reports. -/
def Reports (o : BuildOutput) (values : OrderedMap String String) (known : List String)
    (x : PropertyProblem) : Prop :=
  ∃ problems, replay o values known = .error (.invalidProperties problems) ∧ x ∈ problems

/-- How a startup comes out when more types are named as known. -/
structure Helps (o : BuildOutput) (values : OrderedMap String String)
    (few many : List String) : Prop where
  /-- A pair with a problem had one before, of which this one comes as `Eases` has it: the same, or
  that its type was unknown. -/
  problems : ∀ y, Reports o values many y →
    ∃ x, Reports o values few x ∧ x.pair = y.pair ∧ Eases x y
  /-- A success stays one, with as many mappings registered. -/
  succeeds : ∀ n, replay o values few = .ok n → replay o values many = .ok n
  /-- Where no other names come to those that are there, nothing changes. -/
  same : many ⊆ few → replay o values many = replay o values few

/-- **More known types only help.**  When all that one startup knows is also known to
another, a pair that fails in the other fails in the first, and if the first succeeds then
the other registers as many mappings.  Startups that know the same names come out alike,
whatever their order and however often they are named. -/
theorem known_types_help (h : few ⊆ many) (o : BuildOutput) (values : OrderedMap String String) :
    Helps o values few many := by
  refine ⟨?_, ?_, ?_⟩
  · intro y hy
    obtain ⟨x, hx, heases⟩ := exists_mem_problems_of_subset h (replay_reports_iff.mp hy)
    exact ⟨x, replay_reports_iff.mpr hx, heases.pair_eq, heases⟩
  · intro n hn
    have hfew := problems_of_replay_ok hn
    have hmany : o.plan.propertyTypes.problems (standaloneTypes o many).resolve values.get? =
        [] := by
      refine List.eq_nil_iff_forall_not_mem.mpr fun y hy => ?_
      obtain ⟨x, hx, -⟩ := exists_mem_problems_of_subset h hy
      rw [hfew] at hx
      exact nomatch hx
    rw [← replay_congr (hfew.trans hmany.symm), hn]
  · intro hback
    have hresolve := resolve_of_same (o := o) fun name => ⟨@h name, @hback name⟩
    exact replay_congr (by rw [hresolve])

/-- An output whose plan asks for a duration. -/
def durationOutput : BuildOutput :=
  ⟨∅, ⟨.ofList [("timeout", .ofList ["java.time.Duration"])], ∅⟩⟩

/-- Naming the type of durations as known `Helps` the startup of `durationOutput`. -/
theorem known_duration_helps :
    ([] : List String) ⊆ ["java.time.Duration"] ∧
      Helps durationOutput ∅ [] ["java.time.Duration"] :=
  ⟨by simp, known_types_help (by simp) durationOutput ∅⟩

end CommandLine

end ConfigBinder
