import DeviceGateway.Gateway.Handlers
import DeviceGateway.Proofs.Registry.FirstWins

/-!
# Which calls a gateway accepts

A name that is in no table is not found in the registry that the table makes
(`lookup_registerAll`), so a call of a service that the gateway does not have gets no handler, and
the error repeats the name. A name that a table has once is found there
(`lookup_registerAll_of_mem`), so a call of a method that a group has gets what the group begins
with (`accept_of_method`).
-/

namespace DeviceGateway

namespace Registry.Builder

variable {ι : Type}

/-- **What no table names is not found.** -/
theorem lookup_registerAll (build : ι → Service) (table : List (String × ι)) {name : String}
    (ht : ∀ entry ∈ table, entry.1 ≠ name) :
    (Builder.new.registerAll build table).2.registry.lookup name =
      .error (.notFound ("service " ++ name)) := by
  obtain ⟨taken, rest, htable, hbound, -⟩ := bindFirst_cases [] table
  have hafter := ((Mirrors.new build).registerAll table).1
  refine hafter.lookup_of_not_mem fun hmem => ?_
  obtain ⟨entry, hentry, rfl⟩ := List.mem_map.1 hmem
  rw [hbound, List.nil_append] at hentry
  exact ht entry (htable ▸ List.mem_append_left rest hentry) rfl

/-- **What a table names once is found.** -/
theorem lookup_registerAll_of_mem (build : ι → Service) {table : List (String × ι)}
    {name : String} {factory : ι} (hn : (table.map (·.1)).Nodup) (hm : (name, factory) ∈ table) :
    (Builder.new.registerAll build table).2.registry.lookup name = .ok (build factory) := by
  have hafter := ((Mirrors.new build).registerAll table).1
  rw [bindFirst_of_nodup hn] at hafter
  exact hafter.lookup_of_mem hm

end Registry.Builder

namespace Gateway

/-- **A service that the gateway does not have** is named in the error. -/
theorem accept_of_unknown (g : Gateway) {r : CallRequest}
    (hr : ∀ group ∈ ServiceGroup.all, group.name ≠ r.service) :
    g.accept r = .error (.notFound ("service " ++ r.service)) := by
  have hlookup : gatewayRegistry.lookup r.service =
      .error (.notFound ("service " ++ r.service)) := by
    refine Registry.Builder.lookup_registerAll _ _ fun entry he => ?_
    rw [List.mem_map] at he
    obtain ⟨group, hg, rfl⟩ := he
    exact hr group hg
  rw [accept, hlookup]

/-- **Every group is found** under its name. -/
theorem lookup_group (group : ServiceGroup) :
    gatewayRegistry.lookup group.name = .ok group.service := by
  have hall : group ∈ ServiceGroup.all := by cases group <;> decide
  refine Registry.Builder.lookup_registerAll_of_mem _ (by decide) ?_
  exact List.mem_map_of_mem (f := fun g => (g.name, g)) hall

/-- **Nothing but the groups is found.** -/
theorem group_of_lookup {name : String} {service : Service}
    (h : gatewayRegistry.lookup name = .ok service) :
    ∃ group : ServiceGroup, name = group.name ∧ service = group.service := by
  by_cases hknown : ∃ group ∈ ServiceGroup.all, group.name = name
  · obtain ⟨group, -, rfl⟩ := hknown
    exact ⟨group, rfl, Except.ok.inj (h.symm.trans (lookup_group group))⟩
  · have hnone : gatewayRegistry.lookup name = .error (.notFound ("service " ++ name)) := by
      refine Registry.Builder.lookup_registerAll _ _ fun entry he => ?_
      obtain ⟨group, hg, rfl⟩ := List.mem_map.1 he
      exact fun heq => hknown ⟨group, hg, heq⟩
    cases h.symm.trans hnone

/-- **A method that a group has** gets what the group begins with. -/
theorem accept_of_method (g : Gateway) (group : ServiceGroup) {r : CallRequest}
    (hs : r.service = group.name) (hm : (group.service.method? r.method).isSome = true) :
    g.accept r = .ok (g.begin group r.method r.request) := by
  have hlookup : gatewayRegistry.lookup r.service = .ok group.service := hs ▸ lookup_group group
  have hname : ServiceGroup.ofName? r.service = some group := by
    rw [hs]
    cases group <;> decide
  simp only [accept, hlookup, hname, hm, if_true]

end Gateway

end DeviceGateway
