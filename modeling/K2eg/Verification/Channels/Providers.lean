import K2eg.Foundation.Interleaving
import K2eg.Model.ChannelProviders

/-! # Which provider answers

The entries are found under the name of the PV alone. An operation works on a channel of its own
provider exactly where the entry, if there is one, was made for a URI of the same provider. -/

namespace K2eg

open Interleaving

/-! ## The entries of the map -/

namespace EpicsServiceManager

variable {manager after : EpicsServiceManager}

/-- No step but `addChannel` makes an entry. -/
theorem mapped_of_next {step : ManagerStep} (hadd : ∀ uri, step ≠ .addChannel uri)
    (hnext : manager.next step = some after) :
    after.taskCount = manager.taskCount ∧
      ∀ pvName id, after.channelMap pvName = some id → manager.channelMap pvName = some id := by
  cases step with
  | addChannel uri => exact absurd rfl (hadd uri)
  | detachTask task =>
      rw [next] at hnext
      split at hnext <;> cases hnext
      exact ⟨rfl, fun _ _ h => h⟩
  | removeChannel uri =>
      obtain rfl := Option.some.inj hnext
      rw [removeChannel]
      split
      · exact ⟨rfl, fun _ _ h => h⟩
      · split <;> exact ⟨rfl, fun _ _ h => h⟩
  | dequeue chain =>
      rw [next] at hnext
      split at hnext <;> cases hnext
      exact ⟨rfl, fun _ _ h => h⟩
  | readKeepAlive chain =>
      rw [next] at hnext
      split at hnext
      · split at hnext <;> cases hnext <;> exact ⟨rfl, fun _ _ h => h⟩
      · cases hnext
  | cleanupAndErase chain =>
      rw [next] at hnext
      split at hnext <;> cases hnext
      refine ⟨rfl, fun pvName id h => ?_⟩
      simp only [cleanupAndErase] at h
      split at h
      · rw [Function.update_apply] at h
        split at h
        · cases h
        · exact h
      · exact h
  | poll chain received =>
      rw [next] at hnext
      split at hnext <;> cases hnext
      exact ⟨rfl, fun _ _ h => h⟩
  | resubmit chain =>
      rw [next] at hnext
      split at hnext <;> cases hnext
      exact ⟨rfl, fun _ _ h => h⟩

theorem addChannel_mapped {uri : String} {pv : PV} (hpv : sanitizePVName uri = some pv) {id : ℕ}
    (hmap : manager.channelMap pv.name = some id) :
    (manager.addChannel uri).channelMap = manager.channelMap ∧
      (manager.addChannel uri).taskCount = manager.taskCount := by
  constructor <;> simp [addChannel, hpv, hmap]

theorem addChannel_absent {uri : String} {pv : PV} (hpv : sanitizePVName uri = some pv)
    (hmap : manager.channelMap pv.name = none) :
    (manager.addChannel uri).channelMap =
        Function.update manager.channelMap pv.name (some manager.taskCount) ∧
      (manager.addChannel uri).taskCount = manager.taskCount + 1 := by
  constructor <;> simp [addChannel, hpv, hmap]

end EpicsServiceManager

namespace ChannelService

variable {s t : ChannelService}

/-! ## The equations of the operations -/

theorem use_eq (operation : ChannelOperation) {uri : String} {pv : PV}
    (hpv : sanitizePVName uri = some pv) :
    s.use operation uri = { s with uses := s.uses ++ [⟨operation, uri, s.channelFor pv⟩] } := by
  simp only [use, hpv]

theorem addChannel_of_malformed {uri : String} (hpv : sanitizePVName uri = none) :
    s.addChannel uri = s := by
  simp only [addChannel, hpv]

theorem addChannel_of_mapped {uri : String} {pv : PV} (hpv : sanitizePVName uri = some pv) {id : ℕ}
    (hmap : s.manager.channelMap pv.name = some id) :
    s.addChannel uri = { s.use .addChannel uri with manager := s.manager.addChannel uri } := by
  simp only [addChannel, hpv, hmap]

theorem addChannel_of_absent {uri : String} {pv : PV} (hpv : sanitizePVName uri = some pv)
    (hmap : s.manager.channelMap pv.name = none) :
    s.addChannel uri = { s.use .addChannel uri with
      manager := s.manager.addChannel uri
      channels := Function.update s.channels s.manager.taskCount (openChannel pv)
      openedFor := Function.update s.openedFor s.manager.taskCount uri } := by
  simp only [addChannel, hpv, hmap]

/-- Every operation has worked on a channel of the PV and the provider of its URI. -/
def OwnProvider (s : ChannelService) : Prop :=
  ∀ used ∈ s.uses, ∀ pv, sanitizePVName used.uri = some pv → used.channel = openChannel pv

/-- The entry of the PV, if there is one, was made for a URI of the same provider. -/
def SameProvider (s : ChannelService) (uri : String) : Prop :=
  ∀ pv ∈ sanitizePVName uri, ∀ id ∈ s.manager.channelMap pv.name,
    ∀ opener ∈ sanitizePVName (s.openedFor id),
      selectProvider opener.protocol = selectProvider pv.protocol

/-- The URI of a step that works on a channel. -/
def uri? : ServiceStep → Option String
  | .manager (.addChannel uri) => some uri
  | .operation _ uri => some uri
  | _ => none

/-- The step does not find an entry of the other provider. -/
def FindsOwn (s : ChannelService) (step : ServiceStep) : Prop :=
  ∀ uri ∈ uri? step, s.SameProvider uri

instance (s : ChannelService) (uri : String) : Decidable (s.SameProvider uri) :=
  inferInstanceAs (Decidable (∀ pv ∈ sanitizePVName uri, ∀ id ∈ s.manager.channelMap pv.name,
    ∀ opener ∈ sanitizePVName (s.openedFor id),
      selectProvider opener.protocol = selectProvider pv.protocol))

instance (s : ChannelService) (step : ServiceStep) : Decidable (s.FindsOwn step) :=
  inferInstanceAs (Decidable (∀ uri ∈ uri? step, s.SameProvider uri))

/-- The channel of an entry is the one that was opened for a URI of its PV. -/
structure Opened (s : ChannelService) : Prop where
  mapped : ∀ pvName id, s.manager.channelMap pvName = some id → id < s.manager.taskCount ∧
    ∃ opener, sanitizePVName (s.openedFor id) = some opener ∧ opener.name = pvName ∧
      s.channels id = openChannel opener

namespace Opened

theorem initial : Opened {} where
  mapped := fun _ _ h => by cases h

/-- The channel that an operation takes is its own exactly where the entry agrees. -/
theorem channelFor_iff (h : Opened s) {uri : String} {pv : PV}
    (hpv : sanitizePVName uri = some pv) :
    s.channelFor pv = openChannel pv ↔ s.SameProvider uri := by
  have huri : ∀ other ∈ sanitizePVName uri, other = pv := by
    intro other hother
    rw [hpv] at hother
    exact (Option.some.inj hother).symm
  rw [channelFor]
  cases hmap : s.manager.channelMap pv.name with
  | none =>
      refine iff_of_true rfl fun other hother id hid => ?_
      obtain rfl := huri other hother
      rw [hmap] at hid
      cases hid
  | some id =>
      obtain ⟨-, opener, hopener, hname, hchannel⟩ := h.mapped pv.name id hmap
      simp only [hchannel]
      constructor
      · intro hsame other hother found hfound who hwho
        obtain rfl := huri other hother
        obtain rfl := Option.some.inj (hmap.symm.trans hfound)
        obtain rfl := Option.some.inj (hopener.symm.trans hwho)
        exact congrArg EpicsChannel.provider hsame
      · intro hsame
        have hprovider := hsame pv hpv id hmap opener hopener
        rw [openChannel, openChannel, hprovider, hname]

end Opened

/-! ## One step -/

/-- What a step does to the entries: it adds one for the URI it works on, or none. -/
inductive EntryMove (s t : ChannelService) (step : ServiceStep) : Prop where
  | kept (count : t.manager.taskCount = s.manager.taskCount)
      (entries : ∀ pvName id, t.manager.channelMap pvName = some id →
        s.manager.channelMap pvName = some id)
      (channels : t.channels = s.channels) (openedFor : t.openedFor = s.openedFor) :
      EntryMove s t step
  | added (uri : String) (pv : PV) (huri : uri? step = some uri)
      (hpv : sanitizePVName uri = some pv) (count : t.manager.taskCount = s.manager.taskCount + 1)
      (entries : t.manager.channelMap =
        Function.update s.manager.channelMap pv.name (some s.manager.taskCount))
      (channels : t.channels = Function.update s.channels s.manager.taskCount (openChannel pv))
      (openedFor : t.openedFor = Function.update s.openedFor s.manager.taskCount uri) :
      EntryMove s t step

theorem entryMove_addChannel (s : ChannelService) (uri : String) :
    EntryMove s (s.addChannel uri) (.manager (.addChannel uri)) := by
  cases hpv : sanitizePVName uri with
  | none =>
      rw [addChannel_of_malformed hpv]
      exact .kept rfl (fun _ _ h => h) rfl rfl
  | some pv =>
      cases hmap : s.manager.channelMap pv.name with
      | some id =>
          obtain ⟨hsame, hcount⟩ := EpicsServiceManager.addChannel_mapped hpv hmap
          rw [addChannel_of_mapped hpv hmap, use_eq .addChannel hpv]
          exact .kept hcount (fun pvName other hother => hsame ▸ hother) rfl rfl
      | none =>
          obtain ⟨hadded, hcount⟩ := EpicsServiceManager.addChannel_absent hpv hmap
          rw [addChannel_of_absent hpv hmap, use_eq .addChannel hpv]
          exact .added uri pv rfl hpv hcount hadded rfl rfl

/-- What a step does: it works on a channel for a URI, or on none. -/
inductive ServiceMove (s t : ChannelService) (step : ServiceStep) : Prop where
  | works (operation : ChannelOperation) (uri : String) (pv : PV) (huri : uri? step = some uri)
      (hpv : sanitizePVName uri = some pv)
      (uses : t.uses = s.uses ++ [⟨operation, uri, s.channelFor pv⟩]) : ServiceMove s t step
  | malformed (uri : String) (huri : uri? step = some uri) (hpv : sanitizePVName uri = none)
      (uses : t.uses = s.uses) : ServiceMove s t step
  | other (huri : uri? step = none) (uses : t.uses = s.uses) : ServiceMove s t step

theorem move_use (s : ChannelService) (operation : ChannelOperation) (uri : String)
    {step : ServiceStep} (huri : uri? step = some uri) :
    ServiceMove s (s.use operation uri) step := by
  cases hpv : sanitizePVName uri with
  | none => exact .malformed uri huri hpv (by simp only [use, hpv])
  | some pv => exact .works operation uri pv huri hpv (by rw [use_eq operation hpv])

theorem move_addChannel (s : ChannelService) (uri : String) :
    ServiceMove s (s.addChannel uri) (.manager (.addChannel uri)) := by
  cases hpv : sanitizePVName uri with
  | none => exact .malformed uri rfl hpv (by rw [addChannel_of_malformed hpv])
  | some pv =>
      refine .works .addChannel uri pv rfl hpv ?_
      cases hmap : s.manager.channelMap pv.name with
      | some id => rw [addChannel_of_mapped hpv hmap, use_eq .addChannel hpv]
      | none => rw [addChannel_of_absent hpv hmap, use_eq .addChannel hpv]

theorem next_manager {step : ManagerStep} (hadd : ∀ uri, step ≠ .addChannel uri) :
    s.next (.manager step) =
        (s.manager.next step).map (fun manager => { s with manager }) ∧
      uri? (.manager step) = none := by
  cases step with
  | addChannel uri => exact absurd rfl (hadd uri)
  | _ => exact ⟨rfl, rfl⟩

/-- A step moves the entries and the operations. -/
theorem moves_of_next {step : ServiceStep} (hnext : s.next step = some t) :
    EntryMove s t step ∧ ServiceMove s t step := by
  cases step with
  | operation operation uri =>
      obtain ⟨-, heq⟩ := Option.ite_none_left_eq_some.mp hnext
      obtain rfl := Option.some.inj heq
      refine ⟨?_, move_use s operation uri rfl⟩
      rw [ChannelService.use]
      split <;> exact .kept rfl (fun _ _ h => h) rfl rfl
  | manager step =>
      by_cases hadd : ∃ uri, step = .addChannel uri
      · obtain ⟨uri, rfl⟩ := hadd
        obtain rfl := Option.some.inj hnext
        exact ⟨entryMove_addChannel s uri, move_addChannel s uri⟩
      · have hnot : ∀ uri, step ≠ .addChannel uri := fun uri heq => hadd ⟨uri, heq⟩
        obtain ⟨hstep, huri⟩ := next_manager (s := s) hnot
        rw [hstep] at hnext
        obtain ⟨manager, hmanager, rfl⟩ := Option.map_eq_some_iff.1 hnext
        obtain ⟨hcount, hmapped⟩ := EpicsServiceManager.mapped_of_next hnot hmanager
        exact ⟨.kept hcount hmapped rfl rfl, .other huri rfl⟩

/-- A step keeps the channels of the entries. -/
theorem Opened.next (h : Opened s) {step : ServiceStep} (hnext : s.next step = some t) :
    Opened t := by
  refine ⟨fun pvName id hid => ?_⟩
  cases (moves_of_next hnext).1 with
  | kept count entries channels openedFor =>
      rw [count, channels, openedFor]
      exact h.mapped pvName id (entries pvName id hid)
  | added uri pv huri hpv count entries channels openedFor =>
      rw [entries, Function.update_apply] at hid
      rw [count, channels, openedFor]
      split at hid
      · rename_i hname
        obtain rfl := Option.some.inj hid
        exact ⟨Nat.lt_succ_self _, pv, by rw [Function.update_self, hpv], hname.symm,
          Function.update_self ..⟩
      · obtain ⟨hlt, hopener⟩ := h.mapped pvName id hid
        rw [Function.update_of_ne hlt.ne, Function.update_of_ne hlt.ne]
        exact ⟨hlt.trans (Nat.lt_succ_self _), hopener⟩

/-- The operations stay on their own providers exactly in the steps that find their own. -/
theorem ownProvider_of_next (h : Opened s) (hown : s.OwnProvider) {step : ServiceStep}
    (hnext : s.next step = some t) : t.OwnProvider ↔ s.FindsOwn step := by
  cases (moves_of_next hnext).2 with
  | works operation uri pv huri hpv uses =>
      have hfinds : s.FindsOwn step ↔ s.SameProvider uri := by
        rw [FindsOwn, huri]
        exact ⟨fun hall => hall uri rfl, fun hsame other hother => by
          obtain rfl := Option.some.inj hother
          exact hsame⟩
      rw [hfinds, ← h.channelFor_iff hpv, OwnProvider, uses]
      constructor
      · intro hall
        exact hall _ (List.mem_append_right _ (List.mem_singleton_self _)) pv hpv
      · intro hsame used hused other hother
        rcases List.mem_append.1 hused with hmem | hlast
        · exact hown used hmem other hother
        · obtain rfl := List.mem_singleton.1 hlast
          obtain rfl := Option.some.inj (hpv.symm.trans hother)
          exact hsame
  | malformed uri huri hpv uses =>
      refine iff_of_true ?_ fun other hother pv hmem => ?_
      · rw [OwnProvider, uses]
        exact hown
      · obtain rfl := Option.some.inj (huri.symm.trans hother)
        rw [hpv] at hmem
        cases hmem
  | other huri uses =>
      refine iff_of_true ?_ fun other hother => ?_
      · rw [OwnProvider, uses]
        exact hown
      · rw [huri] at hother
        cases hother

/-! ## Runs -/

/-- In a run every operation works on a channel of the provider of its URI if and only if no step
finds an entry that was made for a URI of another provider. -/
theorem ownProvider_iff {steps : List ServiceStep} (h : AnyRun next {} steps s) :
    Always next {} steps OwnProvider ↔ Run next FindsOwn {} steps s := by
  refine Run.always_iff (I := fun s => Opened s ∧ s.OwnProvider)
    ⟨Opened.initial, fun used hused => absurd hused List.not_mem_nil⟩ (fun _ hs => hs.2) ?_ h
  intro s step t hs hnext
  have hown := ownProvider_of_next hs.1 hs.2 hnext
  exact ⟨fun hfinds => ⟨hs.1.next hnext, hown.2 hfinds⟩, fun hnot hafter => hnot (hown.1 hafter)⟩

/-- The URIs of a run name each PV with one provider. -/
def NoAliases (steps : List ServiceStep) : Prop :=
  ∀ uri ∈ steps.filterMap uri?, ∀ other ∈ steps.filterMap uri?,
    ∀ pv ∈ sanitizePVName uri, ∀ otherPv ∈ sanitizePVName other, pv.name = otherPv.name →
      selectProvider pv.protocol = selectProvider otherPv.protocol

/-- The entries were made for URIs of the list. -/
def OpenedFrom (uris : List String) (s : ChannelService) : Prop :=
  ∀ pvName id, s.manager.channelMap pvName = some id → s.openedFor id ∈ uris

theorem OpenedFrom.next {uris : List String} (hopened : Opened s) (h : s.OpenedFrom uris)
    {step : ServiceStep} (hnext : s.next step = some t) :
    t.OpenedFrom (uris ++ (uri? step).toList) := by
  intro pvName id hid
  cases (moves_of_next hnext).1 with
  | kept count entries channels openedFor =>
      rw [openedFor]
      exact List.mem_append_left _ (h pvName id (entries pvName id hid))
  | added uri pv huri hpv count entries channels openedFor =>
      rw [entries, Function.update_apply] at hid
      rw [openedFor]
      split at hid
      · obtain rfl := Option.some.inj hid
        rw [Function.update_self, huri]
        exact List.mem_append_right _ (List.mem_singleton_self uri)
      · rw [Function.update_of_ne (hopened.mapped pvName id hid).1.ne]
        exact List.mem_append_left _ (h pvName id hid)

/-- Where no PV is named with two providers, no step finds an entry of another one. -/
theorem findsOwn_of_noAliases {steps : List ServiceStep} (h : AnyRun next {} steps s) :
    NoAliases steps → Run next FindsOwn {} steps s ∧ Opened s ∧
      s.OpenedFrom (steps.filterMap uri?) := by
  induction h with
  | nil => exact fun _ => ⟨.nil, Opened.initial, fun _ _ hmap => by cases hmap⟩
  | @snoc past s step t _ _ hnext ih =>
      intro hnone
      have huris : (past ++ [step]).filterMap uri? = past.filterMap uri? ++ (uri? step).toList := by
        rw [List.filterMap_append]
        cases huri : uri? step <;> simp [huri]
      rw [NoAliases, huris] at hnone
      have hpast : NoAliases past := fun uri huri other hother =>
        hnone uri (List.mem_append_left _ huri) other (List.mem_append_left _ hother)
      obtain ⟨hfinds, hopened, hfrom⟩ := ih hpast
      rw [huris]
      refine ⟨hfinds.snoc ?_ hnext, hopened.next hnext, hfrom.next hopened hnext⟩
      intro uri huri pv hpv id hid opener hopener
      obtain ⟨-, found, hfound, hname, -⟩ := hopened.mapped pv.name id hid
      obtain rfl := Option.some.inj (hfound.symm.trans hopener)
      exact hnone _ (List.mem_append_left _ (hfrom pv.name id hid)) uri
        (List.mem_append_right _ (Option.mem_toList.2 huri)) found hfound pv hpv hname

/-- Where no PV is named with two providers, every operation is on its own. -/
theorem ownProvider_of_noAliases {steps : List ServiceStep} (h : AnyRun next {} steps s)
    (hnone : NoAliases steps) : Always next {} steps OwnProvider :=
  (ownProvider_iff h).2 (findsOwn_of_noAliases h hnone).1

/-- Two clients name the same PV with the two protocols, one after the other. -/
theorem ownProvider_readded :
    let steps : List ServiceStep := [.manager (.addChannel "pva://a"),
      .operation .getChannelData "pva://a.EGU", .manager (.detachTask 0),
      .manager (.removeChannel "pva://a"), .manager (.dequeue 0), .manager (.readKeepAlive 0),
      .manager (.cleanupAndErase 0), .operation .putChannelData "ca://a",
      .manager (.addChannel "ca://a")]
    Always next {} steps OwnProvider := by
  intro steps
  obtain ⟨s, hrun, -⟩ := exists_run next FindsOwn {} steps (fun _ => true) (by decide)
  exact (ownProvider_iff hrun.any).2 hrun

/-- After `addChannel` of `pva://a`, the data of `ca://a` are asked of the other provider. -/
theorem not_ownProvider_aliased :
    ∃ s, AnyRun next {} [.manager (.addChannel "pva://a"), .operation .getChannelData "ca://a"] s ∧
      ¬ s.OwnProvider := by
  obtain ⟨s, hrun, hcheck⟩ := exists_run next (fun _ _ => True) {}
    [.manager (.addChannel "pva://a"), .operation .getChannelData "ca://a"]
    (fun s => decide (⟨.getChannelData, "ca://a", ⟨"pva", "a"⟩⟩ ∈ s.uses)) (by decide)
  refine ⟨s, hrun, fun hown => ?_⟩
  have hsame := hown _ (of_decide_eq_true hcheck) ⟨"ca", "a", "value"⟩ (by decide)
  revert hsame
  decide

end ChannelService

end K2eg
