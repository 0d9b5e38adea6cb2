import K2eg.Verification.Monitors.Handlers
import K2eg.Verification.Monitors.Steps

/-! # Persisted monitors

A row stands for the PV name of its URI and its destination. Where the requests are admitted, no
two rows stand for the same, and registration and removal do what they say. -/

namespace K2eg

open ChannelRepository

/-- The monitor of a PV name and a destination. -/
def ChannelMonitorType.Is (monitor : ChannelMonitorType) (name destination : String) : Prop :=
  registeredName monitor.pvName = some name ∧ monitor.channelDestination = destination

instance (monitor : ChannelMonitorType) (name destination : String) :
    Decidable (monitor.Is name destination) :=
  inferInstanceAs (Decidable (_ ∧ _))

/-- The repository has a row of the channel. -/
def ChannelRepository.Persisted (repository : ChannelRepository) (name destination : String) :
    Prop :=
  ∃ row ∈ repository.rows, row.Is name destination

namespace NodeConfiguration

/-- The URIs can be sanitized, each channel is requested by one URI, and a request that the
configuration has already has its row. -/
def Admits (node : NodeConfiguration) : List ChannelMonitorType → Prop
  | [] => True
  | description :: rest =>
    ((registeredName description.pvName).isSome = true ∧
      (∀ row ∈ node.channelRepository.rows,
        registeredName row.pvName = registeredName description.pvName →
          row.channelDestination = description.channelDestination →
            row.pvName = description.pvName) ∧
      (node.nodeConfiguration.isPresent description.pvName (infoOf description) = true →
        ∃ row ∈ node.channelRepository.rows, row.sameChannel description = true)) ∧
    (node.addOne description).2.Admits rest

instance decidableAdmits : (node : NodeConfiguration) →
    (descriptions : List ChannelMonitorType) → Decidable (node.Admits descriptions)
  | _, [] => .isTrue trivial
  | node, description :: rest =>
    have := decidableAdmits (node.addOne description).2 rest
    inferInstanceAs (Decidable (_ ∧ (node.addOne description).2.Admits rest))

end NodeConfiguration

/-! ## Persisted monitors -/

namespace ChannelRepository

variable {repository : ChannelRepository} {name destination : String}

/-- The URIs of the rows can be sanitized, and no channel has two of them. -/
structure Plain (repository : ChannelRepository) : Prop where
  named : ∀ row ∈ repository.rows, (registeredName row.pvName).isSome = true
  alone : ∀ a ∈ repository.rows, ∀ b ∈ repository.rows,
    registeredName a.pvName = registeredName b.pvName →
      a.channelDestination = b.channelDestination → a.pvName = b.pvName

theorem is_of_sameChannel {row description : ChannelMonitorType}
    (h : row.sameChannel description = true) :
    row.Is name destination ↔ description.Is name destination := by
  obtain ⟨hpv, hdest⟩ := of_decide_eq_true h
  rw [ChannelMonitorType.Is, hpv, hdest, ChannelMonitorType.Is]

theorem KeepsKey.is {update : ChannelMonitorType → ChannelMonitorType} (h : KeepsKey update)
    (row : ChannelMonitorType) : (update row).Is name destination ↔ row.Is name destination := by
  rw [ChannelMonitorType.Is, (h row).2.1, (h row).2.2, ChannelMonitorType.Is]

theorem persisted_map {update : ChannelMonitorType → ChannelMonitorType} (h : KeepsKey update) :
    { repository with rows := repository.rows.map update }.Persisted name destination ↔
      repository.Persisted name destination := by
  simp only [Persisted, List.mem_map, exists_exists_and_eq_and, h.is]

theorem Plain.map (h : repository.Plain) {update : ChannelMonitorType → ChannelMonitorType}
    (hkeeps : KeepsKey update) : { repository with rows := repository.rows.map update }.Plain := by
  refine ⟨List.forall_mem_map.mpr fun row hrow => ?_, fun a ha b hb => ?_⟩
  · rw [(hkeeps row).2.1]
    exact h.named row hrow
  · obtain ⟨a', ha', rfl⟩ := List.mem_map.mp ha
    obtain ⟨b', hb', rfl⟩ := List.mem_map.mp hb
    rw [(hkeeps a').2.1, (hkeeps b').2.1, (hkeeps a').2.2, (hkeeps b').2.2]
    exact h.alone a' ha' b' hb'

theorem Plain.remove (h : repository.Plain) (description : ChannelMonitorType) :
    (repository.remove description).Plain :=
  ⟨fun row hrow => h.named row (mem_remove.mp hrow).1,
    fun a ha b hb => h.alone a (mem_remove.mp ha).1 b (mem_remove.mp hb).1⟩

/-- The channel of the row that is removed is persisted no longer. -/
theorem Plain.persisted_remove (h : repository.Plain) {row : ChannelMonitorType}
    (hkept : repository.Keeps row) :
    (repository.remove row).Persisted name destination ↔
      repository.Persisted name destination ∧ ¬row.Is name destination := by
  obtain ⟨current, hcurrent, -, hpv, hdest⟩ := hkept
  constructor
  · rintro ⟨other, hother, his⟩
    obtain ⟨hmem, hsame⟩ := mem_remove.mp hother
    refine ⟨⟨other, hmem, his⟩, fun hrow => ?_⟩
    have halone := h.alone other hmem current hcurrent (by rw [his.1, hpv, hrow.1])
      (by rw [his.2, hdest, hrow.2])
    simp [ChannelMonitorType.sameChannel, halone, hpv, his.2, hrow.2] at hsame
  · rintro ⟨⟨other, hmem, his⟩, hrow⟩
    refine ⟨other, mem_remove.mpr ⟨hmem, ?_⟩, his⟩
    by_contra hsame
    exact hrow ((is_of_sameChannel (by simpa using hsame)).mp his)

theorem Keyed.persisted_insert (h : repository.Keyed) (description : ChannelMonitorType) :
    (repository.insert description).2.Persisted name destination ↔
      repository.Persisted name destination ∨ description.Is name destination := by
  obtain ⟨hkept, new, hnew, hsame⟩ := exists_insert repository description
  constructor
  · rintro ⟨row, hrow, his⟩
    rcases h.mem_insert hrow with ⟨hmem, -⟩ | ⟨hsame, -⟩
    · exact .inl ⟨row, hmem, his⟩
    · exact .inr ((is_of_sameChannel hsame).mp his)
  · rintro (⟨row, hrow, his⟩ | his)
    · obtain ⟨kept, hmem, -, hpv, hdest⟩ := hkept row hrow
      exact ⟨kept, hmem, hpv ▸ his.1, hdest.trans his.2⟩
    · exact ⟨new, hnew, (is_of_sameChannel hsame).mpr his⟩

theorem Plain.insert (h : repository.Plain) (hkeyed : repository.Keyed)
    {description : ChannelMonitorType} (hnamed : (registeredName description.pvName).isSome = true)
    (halone : ∀ row ∈ repository.rows,
      registeredName row.pvName = registeredName description.pvName →
        row.channelDestination = description.channelDestination →
          row.pvName = description.pvName) : (repository.insert description).2.Plain := by
  refine ⟨fun row hrow => ?_, fun a ha b hb hname hdest => ?_⟩
  · rcases hkeyed.mem_insert hrow with ⟨hmem, -⟩ | ⟨hsame, -⟩
    · exact h.named row hmem
    · rwa [(of_decide_eq_true hsame).1]
  · rcases hkeyed.mem_insert ha with ⟨ha', -⟩ | ⟨hsame, -⟩ <;>
      rcases hkeyed.mem_insert hb with ⟨hb', -⟩ | ⟨hsame', -⟩
    · exact h.alone a ha' b hb' hname hdest
    · obtain ⟨hpv, hdest'⟩ := of_decide_eq_true hsame'
      rw [hpv] at hname ⊢
      exact halone a ha' hname (hdest.trans hdest')
    · obtain ⟨hpv, hdest'⟩ := of_decide_eq_true hsame
      rw [hpv] at hname ⊢
      exact (halone b hb' hname.symm (hdest.symm.trans hdest')).symm
    · exact (of_decide_eq_true hsame).1.trans (of_decide_eq_true hsame').1.symm

end ChannelRepository

/-- Requests that are admitted persist their channels. -/
theorem NodeConfiguration.persisted_addLoop {node : NodeConfiguration}
    (hplain : node.channelRepository.Plain) (hkeyed : node.channelRepository.Keyed)
    {descriptions : List ChannelMonitorType} (hadmits : node.Admits descriptions) :
    (node.addLoop descriptions).2.channelRepository.Plain ∧ ∀ name destination,
      (node.addLoop descriptions).2.channelRepository.Persisted name destination ↔
        node.channelRepository.Persisted name destination ∨
          ∃ description ∈ descriptions, description.Is name destination := by
  induction descriptions generalizing node with
  | nil => exact ⟨hplain, fun name destination => by simp [addLoop]⟩
  | cons description rest ih =>
      obtain ⟨⟨hnamed, halone, hbacked⟩, hrest⟩ := hadmits
      have hadd : (node.addOne description).2.channelRepository.Plain ∧
          (node.addOne description).2.channelRepository.Keyed ∧ ∀ name destination,
            (node.addOne description).2.channelRepository.Persisted name destination ↔
              node.channelRepository.Persisted name destination ∨
                description.Is name destination := by
        rcases node.addOne_repository description with ⟨heq, hpresent⟩ | heq
        · rw [heq]
          refine ⟨hplain, hkeyed, fun name destination => ⟨.inl, ?_⟩⟩
          rintro (hpersisted | his)
          · exact hpersisted
          · obtain ⟨row, hrow, hsame⟩ := hbacked hpresent
            exact ⟨row, hrow, (is_of_sameChannel hsame).mpr his⟩
        · rw [heq]
          exact ⟨hplain.insert hkeyed hnamed halone, hkeyed.insert description,
            fun name destination => hkeyed.persisted_insert description⟩
      obtain ⟨hplain', hpersisted⟩ := ih hadd.1 hadd.2.1 hrest
      refine ⟨hplain', fun name destination => (hpersisted name destination).trans ?_⟩
      simp only [hadd.2.2, or_assoc, List.mem_cons, exists_eq_or_imp]

end K2eg
