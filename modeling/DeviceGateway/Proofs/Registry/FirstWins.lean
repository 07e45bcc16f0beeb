import DeviceGateway.Registry

/-!
# The first registration wins

A builder and the registry that it makes are an association list in which a name keeps what it was
first bound to. The list is a small program of its own (`firstBindings`), and the two parts of a
registry agree with it after any sequence of registrations (`Mirrors`): the bindings are the list,
and the index says where each name stands in it. So what is known of the list is known of every
registry (`registry_is_first_wins`).
-/

namespace DeviceGateway.Registry

variable {ι : Type}

/-- **What is asked of a builder.** -/
inductive Registration (ι : Type) where
  | one (name : String) (factory : ι)
  | table (entries : List (String × ι))

def Registration.entries : Registration ι → List (String × ι)
  | one name factory => [(name, factory)]
  | table entries => entries

/-- The error of a registration whose name is taken. -/
def duplicate (name : String) : GatewayError :=
  .configuration ("duplicate service name " ++ Text.quote name)

/-! ## An association list -/

/-- The bindings after a table: its entries are bound in turn, up to the first whose name is bound
already. That name is told, too. -/
def bindFirst (bound : List (String × ι)) :
    List (String × ι) → Option String × List (String × ι)
  | [] => (none, bound)
  | entry :: rest =>
    if entry.1 ∈ bound.map (·.1) then (some entry.1, bound) else bindFirst (bound ++ [entry]) rest

/-- **The bindings after a sequence of registrations**: each name, and what it was first bound to. -/
def firstBindings (rs : List (Registration ι)) : List (String × ι) :=
  rs.foldl (fun bound r => (bindFirst bound r.entries).2) []

theorem firstBindings_append (rs more : List (Registration ι)) :
    firstBindings (rs ++ more) =
      more.foldl (fun bound r => (bindFirst bound r.entries).2) (firstBindings rs) :=
  List.foldl_append

/-- **What a table does**: the entries before the first duplicate are bound, and no others. -/
theorem bindFirst_cases (bound table : List (String × ι)) :
    ∃ taken rest, table = taken ++ rest ∧ (bindFirst bound table).2 = bound ++ taken ∧
      ((rest = [] ∧ (bindFirst bound table).1 = none) ∨
        ∃ name factory more, rest = (name, factory) :: more ∧
          name ∈ (bound ++ taken).map (·.1) ∧ (bindFirst bound table).1 = some name) := by
  induction table generalizing bound with
  | nil => exact ⟨[], [], rfl, (List.append_nil bound).symm, .inl ⟨rfl, rfl⟩⟩
  | cons entry rest ih =>
      rw [bindFirst]
      split
      · next htaken =>
        refine ⟨[], entry :: rest, rfl, (List.append_nil bound).symm, .inr ?_⟩
        exact ⟨entry.1, entry.2, rest, rfl, by rwa [List.append_nil], rfl⟩
      · obtain ⟨taken, left, hrest, hbound, hend⟩ := ih (bound ++ [entry])
        rw [List.append_assoc, List.singleton_append] at hbound hend
        exact ⟨entry :: taken, left, by rw [hrest, List.cons_append], hbound, hend⟩

/-- A table without duplicates is bound as a whole. -/
theorem bindFirst_of_nodup {bound table : List (String × ι)}
    (h : ((bound ++ table).map (·.1)).Nodup) : bindFirst bound table = (none, bound ++ table) := by
  obtain ⟨taken, rest, rfl, hbound, ⟨rfl, hnone⟩ | ⟨name, factory, more, rfl, hmem, -⟩⟩ :=
    bindFirst_cases bound table
  · rw [List.append_nil] at hnone hbound ⊢
    exact Prod.ext hnone hbound
  · rw [← List.append_assoc, List.map_append, List.nodup_append] at h
    exact absurd rfl (h.2.2 name hmem name List.mem_cons_self)

theorem isPrefix_bindFirst (bound table : List (String × ι)) :
    bound <+: (bindFirst bound table).2 := by
  obtain ⟨taken, -, -, hbound, -⟩ := bindFirst_cases bound table
  exact ⟨taken, hbound.symm⟩

/-- **A name keeps what it was first bound to.** -/
theorem isPrefix_firstBindings (rs more : List (Registration ι)) :
    firstBindings rs <+: firstBindings (rs ++ more) := by
  rw [firstBindings_append]
  generalize firstBindings rs = bound
  induction more generalizing bound with
  | nil => exact List.prefix_rfl
  | cons r more ih => exact (isPrefix_bindFirst bound r.entries).trans (ih _)

namespace Builder

/-! ## The builder beside the list -/

/-- **A builder that has made the bindings of a list.** -/
structure Mirrors (build : ι → Service) (b : Builder ι) (bound : List (String × ι)) : Prop where
  bindings : b.registry.bindings.toList = bound.map fun e => ⟨e.1, build e.2⟩
  /-- The index tells of each name where it stands. -/
  index : ∀ (name : String) (i : Nat),
    b.registry.index[name]? = some i ↔ ∃ factory, bound[i]? = some (name, factory)
  /-- The factories of the bindings have been run, and no others. -/
  built : b.built = bound.map (·.2)
  distinct : (bound.map (·.1)).Nodup

variable {build : ι → Service} {b : Builder ι} {bound : List (String × ι)} {name : String}
  {factory : ι}

theorem Mirrors.new (build : ι → Service) : Mirrors build (Builder.new : Builder ι) [] where
  bindings := rfl
  index name i := by
    have hnone : (Builder.new : Builder ι).registry.index[name]? = none :=
      Std.HashMap.getElem?_empty
    simp [hnone]
  built := rfl
  distinct := List.nodup_nil

namespace Mirrors

variable (h : Mirrors build b bound)
include h

theorem size_eq : b.registry.bindings.size = bound.length := by
  rw [← Array.length_toList, h.bindings, List.length_map]

theorem contains_iff (name : String) :
    b.registry.index.contains name = true ↔ name ∈ bound.map (·.1) := by
  rw [Std.HashMap.contains_eq_isSome_getElem?, Option.isSome_iff_exists]
  constructor
  · rintro ⟨i, hi⟩
    obtain ⟨factory, hat⟩ := (h.index name i).1 hi
    exact List.mem_map.2 ⟨_, List.mem_of_getElem? hat, rfl⟩
  · intro hmem
    obtain ⟨⟨found, factory⟩, hentry, rfl⟩ := List.mem_map.1 hmem
    obtain ⟨i, hat⟩ := List.getElem?_of_mem hentry
    exact ⟨i, (h.index found i).2 ⟨factory, hat⟩⟩

/-- A duplicate is refused, and the builder is as it was. -/
theorem register_of_taken (factory : ι) (htaken : name ∈ bound.map (·.1)) :
    b.register build name factory = .error (duplicate name) :=
  if_pos ((h.contains_iff name).2 htaken)

/-- **A new name is bound behind all others**, and its factory is run. -/
theorem register_of_free (factory : ι) (hfree : name ∉ bound.map (·.1)) :
    ∃ b', b.register build name factory = .ok b' ∧ Mirrors build b' (bound ++ [(name, factory)]) := by
  refine ⟨_, if_neg (mt (h.contains_iff name).1 hfree), ?_, ?_, ?_, ?_⟩
  · show (b.registry.bindings.push ⟨name, build factory⟩).toList = _
    rw [Array.toList_push, h.bindings, List.map_append]
    rfl
  · intro other i
    show (b.registry.index.insert name b.registry.bindings.size)[other]? = some i ↔ _
    rw [Std.HashMap.getElem?_insert, h.size_eq, List.getElem?_append]
    by_cases hother : name = other
    · subst hother
      rw [if_pos (beq_self_eq_true name), Option.some_inj]
      have hold (f : ι) : bound[i]? ≠ some (name, f) := fun hat =>
        hfree (List.mem_map.2 ⟨_, List.mem_of_getElem? hat, rfl⟩)
      constructor
      · rintro rfl
        exact ⟨factory, by rw [if_neg (Nat.lt_irrefl _), Nat.sub_self]; rfl⟩
      · rintro ⟨f, hat⟩
        split at hat
        · exact absurd hat (hold f)
        · have hlt := (List.getElem?_eq_some_iff.1 hat).1
          rw [List.length_singleton] at hlt
          omega
    · rw [if_neg (by simpa using hother), h.index other i]
      have hnew (f : ι) (j : Nat) : [(name, factory)][j]? ≠ some (other, f) := fun hat =>
        hother (Prod.ext_iff.1 (List.mem_singleton.1 (List.mem_of_getElem? hat))).1.symm
      constructor
      · rintro ⟨f, hat⟩
        exact ⟨f, by rw [if_pos (List.getElem?_eq_some_iff.1 hat).1, hat]⟩
      · rintro ⟨f, hat⟩
        split at hat
        · exact ⟨f, hat⟩
        · exact absurd hat (hnew f _)
  · show (factory :: b.ran).reverse = _
    rw [List.reverse_cons, List.map_append]
    exact congrArg (· ++ [factory]) h.built
  · rw [List.map_append]
    refine List.nodup_append.2 ⟨h.distinct, List.pairwise_singleton _ _, ?_⟩
    rintro other hmem _ hname rfl
    obtain rfl := List.mem_singleton.1 hname
    exact hfree hmem

/-- **A table does to the builder what it does to the list.** -/
theorem registerAll (table : List (String × ι)) :
    Mirrors build (b.registerAll build table).2 (bindFirst bound table).2 ∧
      (b.registerAll build table).1 = (bindFirst bound table).1.map duplicate := by
  induction table generalizing b bound with
  | nil => exact ⟨h, rfl⟩
  | cons entry rest ih =>
      obtain ⟨name, factory⟩ := entry
      by_cases htaken : name ∈ bound.map (·.1)
      · rw [Builder.registerAll, h.register_of_taken factory htaken, bindFirst, if_pos htaken]
        exact ⟨h, rfl⟩
      · obtain ⟨b', hb', h'⟩ := h.register_of_free factory htaken
        rw [Builder.registerAll, hb', bindFirst, if_neg htaken]
        exact ih h'

/-- A table that begins with a duplicate leaves the builder as it was. -/
theorem registerAll_of_taken (more : List (String × ι)) (factory : ι)
    (htaken : name ∈ bound.map (·.1)) : (b.registerAll build ((name, factory) :: more)).2 = b := by
  rw [Builder.registerAll, h.register_of_taken factory htaken]

theorem lookup_of_mem (hmem : (name, factory) ∈ bound) :
    b.registry.lookup name = .ok (build factory) := by
  obtain ⟨i, hat⟩ := List.getElem?_of_mem hmem
  have hbinding : b.registry.bindings[i]? = some ⟨name, build factory⟩ := by
    rw [← Array.getElem?_toList, h.bindings, List.getElem?_map, hat]
    rfl
  rw [lookup, (h.index name i).2 ⟨factory, hat⟩]
  dsimp only
  rw [hbinding]

theorem lookup_of_not_mem (hfree : name ∉ bound.map (·.1)) :
    b.registry.lookup name = .error (.notFound ("service " ++ name)) := by
  have hindex : b.registry.index[name]? = none := by
    refine Option.eq_none_iff_forall_ne_some.2 fun i hi => ?_
    obtain ⟨factory, hat⟩ := (h.index name i).1 hi
    exact hfree (List.mem_map.2 ⟨_, List.mem_of_getElem? hat, rfl⟩)
  rw [lookup, hindex]

/-- The index and the bindings agree. -/
theorem index_iff (name : String) (i : Nat) :
    b.registry.index[name]? = some i ↔
      ∃ service, b.registry.bindings[i]? = some ⟨name, service⟩ := by
  rw [h.index, ← Array.getElem?_toList, h.bindings, List.getElem?_map]
  constructor
  · rintro ⟨factory, hat⟩
    exact ⟨build factory, by rw [hat]; rfl⟩
  · rintro ⟨service, hat⟩
    obtain ⟨⟨found, factory⟩, hentry, heq⟩ := Option.map_eq_some_iff.1 hat
    cases heq
    exact ⟨factory, hentry⟩

end Mirrors

/-! ## Any sequence of registrations -/

/-- What is asked of a builder is done: what went wrong, if anything, and the builder after it. A
registration that is refused leaves the builder as it was. -/
def carryOut (build : ι → Service) (b : Builder ι) :
    Registration ι → Option GatewayError × Builder ι
  | .one name factory =>
    match b.register build name factory with
    | .error e => (some e, b)
    | .ok b => (none, b)
  | .table entries => b.registerAll build entries

/-- The builder after a sequence of registrations, whatever went wrong in them. -/
def after (build : ι → Service) (b : Builder ι) (rs : List (Registration ι)) : Builder ι :=
  rs.foldl (fun b r => (b.carryOut build r).2) b

/-- One registration is a table of one entry. -/
theorem carryOut_eq (build : ι → Service) (b : Builder ι) (r : Registration ι) :
    b.carryOut build r = b.registerAll build r.entries := by
  cases r with
  | one name factory =>
      cases hb : b.register build name factory with
      | error e => simp only [carryOut, Registration.entries, registerAll, hb]
      | ok b' => simp only [carryOut, Registration.entries, registerAll, hb]
  | table entries => rfl

theorem Mirrors.carryOut (h : Mirrors build b bound) (r : Registration ι) :
    Mirrors build (b.carryOut build r).2 (bindFirst bound r.entries).2 := by
  rw [carryOut_eq]
  exact (h.registerAll r.entries).1

/-- **After any sequence of registrations the builder has made the first bindings.** -/
theorem mirrors_after (build : ι → Service) (rs : List (Registration ι)) :
    Mirrors build (new.after build rs) (firstBindings rs) := by
  suffices h : ∀ (b : Builder ι) bound, Mirrors build b bound →
      Mirrors build (b.after build rs)
        (rs.foldl (fun bound r => (bindFirst bound r.entries).2) bound) from
    h new [] (Mirrors.new build)
  intro b bound h
  induction rs generalizing b bound with
  | nil => exact h
  | cons r rs ih => exact ih _ _ (h.carryOut r)

/-- **What one registration does** to a builder and to the bindings that it has made. -/
structure Registers (build : ι → Service) (b : Builder ι) (bound : List (String × ι))
    (r : Registration ι) (taken rest : List (String × ι)) : Prop where
  entries : r.entries = taken ++ rest
  /-- The entries before the first duplicate are bound, and their factories are run, in order, -/
  bindings : (b.carryOut build r).2.registry.bindings.toList =
    b.registry.bindings.toList ++ taken.map fun e => ⟨e.1, build e.2⟩
  built : (b.carryOut build r).2.built = b.built ++ taken.map (·.2)
  /-- the duplicate is what goes wrong, and nothing comes of it and of what follows it, -/
  refused : (rest = [] ∧ (b.carryOut build r).1 = none) ∨
    ∃ name factory more, rest = (name, factory) :: more ∧ name ∈ (bound ++ taken).map (·.1) ∧
      (b.carryOut build r).1 = some (duplicate name)
  /-- and a duplicate at once leaves everything as it was. -/
  unchanged : taken = [] → (b.carryOut build r).2 = b

theorem Mirrors.registers (h : Mirrors build b bound) (r : Registration ι) :
    ∃ taken rest, (bindFirst bound r.entries).2 = bound ++ taken ∧
      Registers build b bound r taken rest := by
  obtain ⟨taken, rest, hentries, hbound, hend⟩ := bindFirst_cases bound r.entries
  obtain ⟨hafter, hanswer⟩ := h.registerAll r.entries
  rw [hbound] at hafter
  refine ⟨taken, rest, hbound, hentries, ?_, ?_, ?_, ?_⟩
  · rw [carryOut_eq, hafter.bindings, h.bindings, List.map_append]
  · rw [carryOut_eq, hafter.built, h.built, List.map_append]
  · rw [carryOut_eq, hanswer]
    rcases hend with ⟨hrest, hnone⟩ | ⟨name, factory, more, hrest, hmem, hsome⟩
    · exact .inl ⟨hrest, by rw [hnone]; rfl⟩
    · exact .inr ⟨name, factory, more, hrest, hmem, by rw [hsome]; rfl⟩
  · rintro rfl
    rw [carryOut_eq, hentries, List.nil_append]
    rcases hend with ⟨rfl, -⟩ | ⟨name, factory, more, rfl, hmem, -⟩
    · rfl
    · rw [List.append_nil] at hmem
      exact h.registerAll_of_taken more factory hmem

end Builder

/-! ## The registry -/

/-- **The registry that a sequence of registrations makes.** -/
def ofRegistrations (build : ι → Service) (rs : List (Registration ι)) : Registry :=
  (Builder.new.after build rs).registry

/-- **A registry in which the first registration wins.** -/
structure FirstWins (build : ι → Service) (rs : List (Registration ι)) : Prop where
  /-- Its bindings are the successful registrations in order, under distinct names, -/
  bindings : (ofRegistrations build rs).bindings.toList =
    (firstBindings rs).map fun e => ⟨e.1, build e.2⟩
  distinct : ((firstBindings rs).map (·.1)).Nodup
  /-- and the factories of these have been run, each once and in order. -/
  built : (Builder.new.after build rs).built = (firstBindings rs).map (·.2)
  /-- A name is found with the service that it was first bound to, for good, -/
  found : ∀ name factory, (name, factory) ∈ firstBindings rs → ∀ more,
    (ofRegistrations build (rs ++ more)).lookup name = .ok (build factory)
  /-- and any other name is not found. -/
  missing : ∀ name, name ∉ (firstBindings rs).map (·.1) ↔
    (ofRegistrations build rs).lookup name = .error (.notFound ("service " ++ name))
  /-- The index has each name, with the place of its binding. -/
  index : ∀ (name : String) (i : Nat), (ofRegistrations build rs).index[name]? = some i ↔
    ∃ service, (ofRegistrations build rs).bindings[i]? = some ⟨name, service⟩
  /-- Each further registration goes on from there. -/
  next : ∀ r, ∃ taken rest, firstBindings (rs ++ [r]) = firstBindings rs ++ taken ∧
    (Builder.new.after build rs).Registers build (firstBindings rs) r taken rest

theorem registry_is_first_wins (build : ι → Service) (rs : List (Registration ι)) :
    FirstWins build rs where
  bindings := (Builder.mirrors_after build rs).bindings
  distinct := (Builder.mirrors_after build rs).distinct
  built := (Builder.mirrors_after build rs).built
  found name factory hmem more :=
    (Builder.mirrors_after build (rs ++ more)).lookup_of_mem
      ((isPrefix_firstBindings rs more).subset hmem)
  missing name := by
    have hafter := Builder.mirrors_after build rs
    constructor
    · exact hafter.lookup_of_not_mem
    · intro herror hmem
      obtain ⟨⟨name, factory⟩, hentry, rfl⟩ := List.mem_map.1 hmem
      cases (hafter.lookup_of_mem hentry).symm.trans herror
  index := (Builder.mirrors_after build rs).index_iff
  next r := by
    rw [firstBindings_append]
    exact (Builder.mirrors_after build rs).registers r

/-- The second entry of the table is a duplicate, so neither it nor the third is bound. -/
example : firstBindings [.one "fs" 0, .table [("ping", 1), ("fs", 2), ("device", 3)]] =
    [("fs", 0), ("ping", 1)] := by decide

end DeviceGateway.Registry
