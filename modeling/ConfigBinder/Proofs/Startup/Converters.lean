/-
Which registered converters are used.

A registration is filed under its name, and a name keeps the converter that was `LastFiled`
under it.  But a name is resolved from its end, and brackets are taken off before the files
are looked into.  So the last converter for a name without brackets at its end is the one
used, for values of that type and for the items of its arrays.  What is filed under a name
with brackets at its end is never looked at: such a name resolves by the name before the
brackets, as if it had not been registered.
-/
import ConfigBinder.Proofs.Startup.Resolution

namespace ConfigBinder

open QualifiedName

/-! ### Names and their brackets -/

/-- A name that `endsInBrackets` has a name before them. -/
theorem QualifiedName.eq_append_of_endsInBrackets {name : String}
    (h : endsInBrackets name = true) : ∃ base, name = base ++ "[]" := by
  obtain ⟨cs, hcs⟩ := List.isSuffixOf_iff_suffix.mp h
  refine ⟨String.ofList cs, String.ext_iff.mpr ?_⟩
  rw [String.toList_append, String.toList_ofList]
  exact hcs.symm

/-- Each name is the `arrayName` of one without brackets at its end. -/
theorem QualifiedName.exists_arrayName (name : String) :
    ∃ base n, endsInBrackets base = false ∧ name = arrayName base n := by
  cases hend : endsInBrackets name with
  | false => exact ⟨name, 0, hend, rfl⟩
  | true =>
      obtain ⟨shorter, hname⟩ := eq_append_of_endsInBrackets hend
      have hlength : shorter.length < name.length := by
        rw [hname, String.length_append]
        exact Nat.lt_add_of_pos_right (by decide)
      obtain ⟨base, n, hbase, hshorter⟩ := exists_arrayName shorter
      exact ⟨base, n + 1, hbase, by rw [hname, hshorter, arrayName]⟩
termination_by name.length

/-! ### Registrations

There are three ways to register, and each comes to entries of a name and a converter.  So a row
of registrations is one row of entries, and only `file` has to be looked at.
-/

/-- A way to make types known. -/
inductive Registration where
  | converter (name : String) (c : Converter)
  | implicit (name : String)
  | implicits (names : List String)

namespace Registration

/-- What is filed: names with their converters. -/
def filed : Registration → List (String × Converter)
  | .converter name c => [(name, c)]
  | .implicit name => [(name, .anything)]
  | .implicits names => names.map fun name => (name, .anything)

/-- The converter is the last that is filed under the name. -/
def LastFiled (entries : List (String × Converter)) (name : String) (c : Converter) : Prop :=
  ∃ earlier later, entries = earlier ++ (name, c) :: later ∧ ∀ e ∈ later, e.1 ≠ name

/-- A name under which something is filed has a converter that is `LastFiled`. -/
theorem exists_lastFiled {name : String} {entries : List (String × Converter)}
    (h : ∃ e ∈ entries, e.1 = name) : ∃ c, LastFiled entries name c := by
  induction entries with
  | nil => simp at h
  | cons e rest ih =>
      by_cases hrest : ∃ x ∈ rest, x.1 = name
      · obtain ⟨c, earlier, later, hsplit, hlater⟩ := ih hrest
        exact ⟨c, e :: earlier, later, by rw [hsplit, List.cons_append], hlater⟩
      · have he : e.1 = name := by
          rw [List.exists_mem_cons_iff] at h
          exact h.resolve_right hrest
        subst he
        exact ⟨e.2, [], rest, rfl, fun x hx heq => hrest ⟨x, hx, heq⟩⟩

end Registration

namespace KnownTypes

open Registration

/-- Makes types known in one of the ways. -/
def register (known : KnownTypes) : Registration → KnownTypes
  | .converter name c => known.withConverter name c
  | .implicit name => known.withImplicit name
  | .implicits names => known.withImplicits names

/-- Makes types known by a row of registrations, each by `register`. -/
def registerAll (known : KnownTypes) (registrations : List Registration) : KnownTypes :=
  registrations.foldl register known

/-- Files converters under names, one after another. -/
def file (known : KnownTypes) (entries : List (String × Converter)) : KnownTypes :=
  entries.foldl (fun known e => known.withConverter e.1 e.2) known

theorem register_eq_file (known : KnownTypes) (r : Registration) :
    known.register r = known.file r.filed := by
  cases r with
  | converter name c => rfl
  | implicit name => rfl
  | implicits names =>
      show names.foldl withImplicit known = (names.map _).foldl _ known
      rw [List.foldl_map]
      rfl

/-- `registerAll` files what each registration has `filed`, in order. -/
theorem registerAll_eq_file (registrations : List Registration) :
    ∀ known : KnownTypes, known.registerAll registrations =
      known.file (registrations.flatMap filed) := by
  induction registrations with
  | nil => intro known; rfl
  | cons r rest ih =>
      intro known
      rw [List.flatMap_cons, file, List.foldl_append]
      show (known.register r).registerAll rest = (known.file r.filed).file (rest.flatMap filed)
      rw [ih, register_eq_file]

/-! ### What is found under a name -/

theorem get?_withConverter (known : KnownTypes) (name x : String) (c : Converter) :
    (known.withConverter name c).custom.get? x =
      if name = x then some c else known.custom.get? x := by
  show (known.custom.insert name c).get? x = _
  by_cases hx : name = x
  · rw [if_pos hx, hx, OrderedMap.get?_insert_self]
  · rw [if_neg hx, OrderedMap.get?_insert_of_ne _ _ (Ne.symm hx)]

/-- Entries under other names leave what a name holds. -/
theorem get?_file_of_absent {name : String} (entries : List (String × Converter)) :
    ∀ known : KnownTypes, (∀ e ∈ entries, e.1 ≠ name) →
      (known.file entries).custom.get? name = known.custom.get? name := by
  induction entries with
  | nil => intro known _; rfl
  | cons e rest ih =>
      intro known h
      rw [List.forall_mem_cons] at h
      show ((known.withConverter e.1 e.2).file rest).custom.get? name = _
      rw [ih _ h.2, get?_withConverter, if_neg h.1]

/-- A name holds the converter that is `LastFiled` under it. -/
theorem get?_file_of_lastFiled {name : String} {c : Converter}
    {entries : List (String × Converter)} (known : KnownTypes) (h : LastFiled entries name c) :
    (known.file entries).custom.get? name = some c := by
  obtain ⟨earlier, later, rfl, hlater⟩ := h
  rw [file, List.foldl_append]
  show (((known.file earlier).withConverter name c).file later).custom.get? name = some c
  rw [get?_file_of_absent later _ hlater, get?_withConverter, if_pos rfl]

/-- The entries that are not filed under names with brackets at their end. -/
def plain (entries : List (String × Converter)) : List (String × Converter) :=
  entries.filter fun e => !endsInBrackets e.1

/-- A name without brackets at its end holds the same when entries under names with them are
left out. -/
theorem get?_file_plain {base : String} (hbase : endsInBrackets base = false)
    (entries : List (String × Converter)) :
    ∀ known other : KnownTypes, known.custom.get? base = other.custom.get? base →
      (known.file (plain entries)).custom.get? base = (other.file entries).custom.get? base := by
  induction entries with
  | nil => intro known other h; exact h
  | cons e rest ih =>
      intro known other h
      show _ = ((other.withConverter e.1 e.2).file rest).custom.get? base
      cases he : endsInBrackets e.1 with
      | false =>
          rw [plain, List.filter_cons_of_pos (by simp [he])]
          show ((known.withConverter e.1 e.2).file (plain rest)).custom.get? base = _
          refine ih _ _ ?_
          rw [get?_withConverter, get?_withConverter, h]
      | true =>
          rw [plain, List.filter_cons_of_neg (by simp [he])]
          refine ih _ _ ?_
          have hne : e.1 ≠ base := by
            intro heq
            rw [heq, hbase] at he
            exact Bool.noConfusion he
          rw [get?_withConverter, if_neg hne, h]

/-! ### What is used -/

/-- What is held under a name that `endsInBrackets` has no part in resolving. -/
theorem resolve_congr {known other : KnownTypes}
    (h : ∀ base, endsInBrackets base = false →
      known.custom.get? base = other.custom.get? base) : known.resolve = other.resolve := by
  funext name
  obtain ⟨base, n, hbase, rfl⟩ := exists_arrayName name
  rw [resolve_arrayName, resolve_arrayName, resolve_of_not_endsInBrackets known hbase,
    resolve_of_not_endsInBrackets other hbase, element?, element?, h base hbase]

/-- A name is resolved to a converter that gives the answers of this one. -/
def Uses (known : KnownTypes) (name : String) (c : Converter) : Prop :=
  ∃ used, known.resolve name = some used ∧ ∀ raw, used raw = c raw

/-- What a name with brackets uses (`Uses`) is the array of what the name before them resolves
to. -/
theorem uses_arrayName_iff {known : KnownTypes} {base : String} {n : Nat} {c : Converter} :
    known.Uses (arrayName base n) c ↔
      ∃ element, known.resolve base = some element ∧ ∀ raw, element.arrays n raw = c raw := by
  unfold Uses
  rw [resolve_arrayName]
  cases known.resolve base with
  | none => simp
  | some element => simp

/-- Which of the converters that a row of registrations files are used. -/
structure RegistrationsHold (known : KnownTypes) (registrations : List Registration) : Prop where
  /-- A name that is registered has a last converter. -/
  last : ∀ name, (∃ e ∈ registrations.flatMap filed, e.1 = name) →
    ∃ c, LastFiled (registrations.flatMap filed) name c
  /-- The last converter for a name without brackets at its end is the one used, for the type
  and for its arrays of any level. -/
  used : ∀ base c, endsInBrackets base = false →
    LastFiled (registrations.flatMap filed) base c →
      ∀ n, (known.registerAll registrations).resolve (arrayName base n) = some (c.arrays n)
  /-- Where nothing is registered for it, the type and its arrays resolve as before. -/
  kept : ∀ base, endsInBrackets base = false →
    (∀ e ∈ registrations.flatMap filed, e.1 ≠ base) →
      ∀ n, (known.registerAll registrations).resolve (arrayName base n) =
        known.resolve (arrayName base n)
  /-- What is registered for names with brackets at their end counts for nothing. -/
  unread : (known.registerAll registrations).resolve =
    (known.file (plain (registrations.flatMap filed))).resolve
  /-- So the last converter for a name is used just when the name has no brackets at its end,
  or the converter answers as that of the array does, made from its element. -/
  used_iff : ∀ name c, LastFiled (registrations.flatMap filed) name c →
    ((known.registerAll registrations).Uses name c ↔ endsInBrackets name = false ∨
      ∃ base n element, endsInBrackets base = false ∧ name = arrayName base (n + 1) ∧
        (known.registerAll registrations).resolve base = some element ∧
        ∀ raw, element.arrays (n + 1) raw = c raw)

/--
**The last converter that is registered for a name is used, unless the name ends in
brackets.**  A name without brackets at its end resolves to it, and so do the arrays of that
name level by level.  What is registered for a name with brackets is never looked up: the
answers are those of the array of what the name before the brackets resolves to, and there
are none when that does not resolve.
-/
theorem registrations_hold (known : KnownTypes) (registrations : List Registration) :
    known.RegistrationsHold registrations := by
  have hused : ∀ base c, endsInBrackets base = false →
      LastFiled (registrations.flatMap filed) base c →
        (known.registerAll registrations).resolve base = some c := by
    intro base c hbase hlast
    rw [registerAll_eq_file, resolve_of_not_endsInBrackets _ hbase]
    exact element?_of_get?_eq_some (get?_file_of_lastFiled known hlast)
  refine ⟨fun name => exists_lastFiled, ?_, ?_, ?_, ?_⟩
  · intro base c hbase hlast n
    rw [resolve_arrayName, hused base c hbase hlast, Option.map_some]
  · intro base hbase habsent n
    rw [resolve_arrayName, resolve_arrayName, resolve_of_not_endsInBrackets _ hbase,
      resolve_of_not_endsInBrackets _ hbase, element?, element?, registerAll_eq_file,
      get?_file_of_absent _ known habsent]
  · rw [registerAll_eq_file]
    refine resolve_congr ?_
    intro base hbase
    exact (get?_file_plain hbase _ known known rfl).symm
  · intro name c hlast
    obtain ⟨base, n, hbase, rfl⟩ := exists_arrayName name
    cases n with
    | zero =>
        refine iff_of_true ⟨c, hused base c hbase hlast, fun _ => rfl⟩ (Or.inl hbase)
    | succ n =>
        rw [uses_arrayName_iff]
        refine ⟨?_, ?_⟩
        · intro h
          obtain ⟨element, helement, hsame⟩ := h
          exact Or.inr ⟨base, n, element, hbase, rfl, helement, hsame⟩
        · intro h
          rcases h with hplain | ⟨base', n', element, -, hname, helement, hsame⟩
          · rw [arrayName, endsInBrackets_append] at hplain
            exact Bool.noConfusion hplain
          · rw [← uses_arrayName_iff, hname, uses_arrayName_iff]
            exact ⟨element, helement, hsame⟩

/-- A type whose array alone was made known: `resolve` finds nothing for the array. -/
theorem array_registration_unread :
    LastFiled ([Registration.implicit "org.acme.Foo[]"].flatMap filed) "org.acme.Foo[]"
        .anything ∧
      ¬ (builtinOnly.registerAll [.implicit "org.acme.Foo[]"]).Uses "org.acme.Foo[]" .anything := by
  refine ⟨⟨[], [], rfl, by simp⟩, ?_⟩
  intro h
  obtain ⟨used, hused, -⟩ := h
  have hnone : ((builtinOnly.registerAll [.implicit "org.acme.Foo[]"]).resolve
      "org.acme.Foo[]").isNone = true := by decide
  rw [hused] at hnone
  exact Bool.noConfusion hnone

end KnownTypes

end ConfigBinder
