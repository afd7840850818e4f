import TunnelFleet.Proofs.Allocation.Owner
import TunnelFleet.Proofs.Networking.Layout
import TunnelFleet.Proofs.Tick.NodeConfig
import TunnelFleet.Proofs.Tick.Provision

namespace TunnelFleet

namespace NodeConfig

def Dials (m : ConfigMap) (endpoint : String) : Prop :=
  ∃ front, m.value? Names.tunnelConfigKey =
    some (front ++ "\nEndpoint = " ++ endpoint ++ "\nPersistentKeepalive = 25\n")

theorem dials_render (name uid : String) (row : Allocation) (networking : Networking)
    (router : Router) : Dials (render name uid row networking router) router.endpoint := by
  refine ⟨"[Interface] # Our own node IP\nAddress = " ++ row.nodeIP ++
    "/32\n[Peer] # The cluster node/pod IP ranges\nPublicKey = " ++ row.routerKey ++
    "\nAllowedIPs = " ++ networking.nodeRange ++ "\nAllowedIPs = " ++ networking.podRange, ?_⟩
  rw [value?_render_tunnel, Option.some.injEq, ← String.toList_inj]
  unfold tunnelFile
  simp only [String.toList_append, List.append_assoc, String.reduceToList, List.cons_append,
    List.nil_append]

end NodeConfig

namespace Reconcile

variable {setting : Setting} {networking : Networking} {name uid key : String} {m : ConfigMap}
  {report : Report} {table : Table} {found : Allocation} {router : Router}

def Dials (endpoint : String) (call : Call) : Prop :=
  ∀ sent, call = .create sent → NodeConfig.Dials sent endpoint

theorem dials_publish (setting : Setting) (networking : Networking) (name uid : String)
    (row : Allocation) (router : Router) (m : ConfigMap) (report : Report) :
    (publish setting networking name uid row router m report).Heeds (fun _ _ _ _ => True)
      (fun _ => Dials router.endpoint) (fun _ _ => True) () := by
  refine ⟨fun sent hsent => ?_, fun stored _ _ => ⟨fun sent hsent => ?_, fun _ _ _ => trivial⟩⟩
  · have hrender := NodeConfig.dials_render name uid row networking router
    rwa [Call.create.inj hsent] at hrender
  · cases hsent

theorem Provisions.dials {tick : Tick Progress}
    (h : Provisions setting networking name uid key m report tick)
    (htable : m.table = .ok table) (hunknown : table.findKey? key = none)
    (hnext : Allocation.next networking.routers table = .ok found)
    (hrouter : networking.router? found.routerKey = some router) :
    tick.Heeds (fun _ _ _ _ => True) (fun _ => Dials router.endpoint) (fun _ _ => True) () := by
  cases h with
  | unread => trivial
  | unknown => trivial
  | reused hread hrow _ =>
    obtain rfl := Except.ok.inj (htable.symm.trans hread)
    cases hunknown.symm.trans hrow
  | unsearched => trivial
  | exhausted => trivial
  | allocated hread _ hfound hrow hlooked =>
    obtain rfl := Except.ok.inj (htable.symm.trans hread)
    obtain rfl := Except.ok.inj (hnext.symm.trans hfound)
    obtain rfl := Option.some.inj (hrouter.symm.trans hlooked)
    refine ⟨fun sent hsent => ?_, fun _ _ _ => dials_publish ..⟩
    cases hsent

theorem dials_of_mem_calls {σ : Type} {answers : Tick.Answers σ} {state : σ} {created : ConfigMap}
    (htable : m.table = .ok table) (hunknown : table.findKey? key = none)
    (hnext : Allocation.next networking.routers table = .ok found)
    (hrouter : networking.router? found.routerKey = some router)
    (hcall : .create created ∈
      (provision setting networking name uid key m report).calls answers state) :
    NodeConfig.Dials created router.endpoint := by
  have hprovisions := provisions setting networking name uid key m report
  have hheeds := hprovisions.dials htable hunknown hnext hrouter
  obtain ⟨-, hdials⟩ := hheeds.of_mem_calls (fun _ => ()) (fun _ _ _ _ _ => trivial) hcall
  exact hdials created rfl

end Reconcile

/-- What the key of found addresses leads to: the first router with that key. That is the one the
addresses are of unless a router in front of it has the same key. -/
structure Networking.KeyLeads (n : Networking) (table : Table) (found : Allocation)
    (front : List Router) (owner looked : Router) : Prop where
  taken : Allocation.IsTakenFrom n.routers table found front owner
  owns : owner.Owns found
  key : found.routerKey = owner.publicKey
  finds : n.router? found.routerKey = some looked
  same_iff : looked = owner ↔ ∀ r ∈ front, r.publicKey ≠ owner.publicKey
  other : looked ≠ owner → looked ∈ front
  owns_iff : (∀ r ∈ front, r.publicKey = owner.publicKey → r.IsApart owner) →
    (looked.Owns found ↔ ∀ r ∈ front, r.publicKey ≠ owner.publicKey)

theorem Networking.KeyLeads.eq_of_nodup {n : Networking} {table : Table} {found : Allocation}
    {front : List Router} {owner looked : Router} (h : n.KeyLeads table found front owner looked)
    (hkeys : (n.routers.map Router.publicKey).Nodup) : looked = owner := by
  refine h.same_iff.mpr fun r hr hsame => ?_
  obtain ⟨back, hback⟩ := h.taken.split
  rw [hback, List.map_append, List.map_cons] at hkeys
  obtain ⟨-, -, hapart⟩ := List.nodup_append.mp hkeys
  exact hapart _ (List.mem_map_of_mem hr) _ List.mem_cons_self hsame

namespace Allocation.IsTakenFrom

variable {n : Networking} {table : Table} {found : Allocation} {front : List Router}
  {owner : Router}

theorem router?_eq (h : IsTakenFrom n.routers table found front owner) :
    n.router? found.routerKey =
      ((front.find? fun r => r.publicKey == owner.publicKey).or (some owner)) := by
  obtain ⟨back, hback⟩ := h.split
  rw [Networking.router?, hback, Router.publicKey_of_pick? h.picked, List.find?_append,
    List.find?_cons_of_pos (by simp)]

theorem exists_keyLeads (h : IsTakenFrom n.routers table found front owner) :
    ∃ looked, n.KeyLeads table found front owner looked := by
  have howns := Router.owns_of_pick? h.picked
  have hkey := Router.publicKey_of_pick? h.picked
  have hfinds := h.router?_eq
  cases hfront : front.find? fun r => r.publicKey == owner.publicKey with
  | none =>
    have hfresh : ∀ r ∈ front, r.publicKey ≠ owner.publicKey := by
      simpa using List.find?_eq_none.mp hfront
    rw [hfront, Option.none_or] at hfinds
    exact ⟨owner, h, howns, hkey, hfinds, by simpa using hfresh, fun hne => absurd rfl hne,
      fun _ => ⟨fun _ => hfresh, fun _ => howns⟩⟩
  | some looked =>
    rw [hfront, Option.some_or] at hfinds
    have hmem := List.mem_of_find?_eq_some hfront
    have hsame : looked.publicKey = owner.publicKey := by simpa using List.find?_some hfront
    have hne : looked ≠ owner := by
      rintro rfl
      cases (h.passed looked hmem).symm.trans h.picked
    have hshared : ¬ ∀ r ∈ front, r.publicKey ≠ owner.publicKey :=
      fun hfresh => hfresh looked hmem hsame
    refine ⟨looked, h, howns, hkey, hfinds, ?_, fun _ => hmem, fun hapart => ?_⟩
    · exact ⟨fun heq => absurd heq hne, fun hfresh => absurd hfresh hshared⟩
    · exact ⟨fun hlooked => absurd hlooked (howns.not_owns_of_isApart (hapart looked hmem hsame)),
        fun hfresh => absurd hfresh hshared⟩

end Allocation.IsTakenFrom

/-- The key of found addresses leads back to the router that they were taken from if and only if no
router in front of it has the same key, and the config map that a node gets with them names the
endpoint of the router that the key leads to. -/
theorem key_leads_to_owner_iff {n : Networking} {table : Table} {found : Allocation}
    (h : Allocation.next n.routers table = .ok found) :
    ∃ front owner looked, n.KeyLeads table found front owner looked ∧
      ∀ (setting : Reconcile.Setting) (name uid key : String) (m : ConfigMap) (report : Report),
        m.table = .ok table → table.findKey? key = none →
        ∀ {σ : Type} (answers : Tick.Answers σ) (state : σ) (created : ConfigMap),
          .create created ∈
            (Reconcile.provision setting n name uid key m report).calls answers state →
          NodeConfig.Dials created looked.endpoint := by
  obtain ⟨front, owner, htaken⟩ := Allocation.exists_owner_of_next h
  obtain ⟨looked, hleads⟩ := htaken.exists_keyLeads
  refine ⟨front, owner, looked, hleads, ?_⟩
  intro setting name uid key m report htable hunknown σ answers state created hcall
  exact Reconcile.dials_of_mem_calls htable hunknown h hleads.finds hcall

namespace Networking

def withSpare (key : String) : Networking where
  nodeRange := "10.1.0.0/16"
  podRange := "10.2.0.0/16"
  serviceRange := ""
  mode := some .selfProvision
  cniNumber := none
  cniMtu := none
  routers := [⟨"R", "a:1", "10.1.0.0/30", "10.2.0.0/22", 24⟩,
    ⟨key, "b:1", "10.1.0.4/30", "10.2.4.0/22", 24⟩]

def twoGiven : Table where
  rows := [⟨"K", "R", "k", "10.1.0.1", "10.2.1.0/24"⟩, ⟨"L", "R", "l", "10.1.0.2", "10.2.2.0/24"⟩]

def fromSpare (key : String) : Allocation :=
  ⟨"", key, "", "10.1.0.5", "10.2.5.0/24"⟩

end Networking

open Networking in
theorem key_leads_to_spare :
    Allocation.next (withSpare "S").routers twoGiven = .ok (fromSpare "S") ∧
      ∃ spare, (withSpare "S").router? "S" = some spare ∧ spare.endpoint = "b:1" ∧
        spare.Owns (fromSpare "S") := by
  have hnext : Allocation.next (withSpare "S").routers twoGiven = .ok (fromSpare "S") := by
    decide +kernel
  obtain ⟨front, owner, looked, hleads, -⟩ := key_leads_to_owner_iff hnext
  have hspare : looked = ⟨"S", "b:1", "10.1.0.4/30", "10.2.4.0/22", 24⟩ :=
    Option.some.inj (hleads.finds.symm.trans (by decide))
  have howner : looked = owner := hleads.eq_of_nodup (by decide)
  exact ⟨hnext, looked, hleads.finds, hspare ▸ rfl, howner ▸ hleads.owns⟩

open Networking in
/-- Two sections with one key: once the first has nothing left, the key of what the second gives
still leads to the first. -/
theorem not_key_leads_to_owner :
    ¬ ∀ (text : String) (n : Networking) (table : Table) (found : Allocation),
      ofText text = .ok n → Allocation.next n.routers table = .ok found →
      ∃ r, n.router? found.routerKey = some r ∧ r.Owns found := by
  intro h
  let small : Router := ⟨"R", "a:1", "10.1.0.0/30", "10.2.0.0/22", 24⟩
  let spare : Router := ⟨"R", "b:1", "10.1.0.4/30", "10.2.4.0/22", 24⟩
  have hwritable : (withSpare "R").IsWritable :=
    ⟨by decide, by decide, by decide, by decide, by decide, by decide⟩
  have htext : ofText ((withSpare "R").document fun _ => false).text = .ok (withSpare "R") :=
    ofText_eq_ok_iff.mpr
      ⟨_, Ini.Document.ofText_text (isPlain_document hwritable), isReadFrom_document hwritable⟩
  have hnext : Allocation.next (withSpare "R").routers twoGiven = .ok (fromSpare "R") := by
    decide +kernel
  obtain ⟨r, hr, howns⟩ := h _ _ _ _ htext hnext
  obtain rfl : r = small := Option.some.inj (hr.symm.trans (by decide))
  have hpick : spare.pick? twoGiven = some (fromSpare "R") := by decide +kernel
  have hnode (a : Address) :
      ¬ (Allocation.Holds "10.1.0.0/30" a ∧ Allocation.Holds "10.1.0.4/30" a) :=
    Allocation.not_holds_of_overlaps rfl rfl rfl a
  have hpod (a : Address) :
      ¬ (Allocation.Holds "10.2.0.0/22" a ∧ Allocation.Holds "10.2.4.0/22" a) :=
    Allocation.not_holds_of_overlaps rfl rfl rfl a
  have hapart : small.IsApart spare := ⟨hnode, hpod⟩
  exact (Router.owns_of_pick? hpick).not_owns_of_isApart hapart howns

end TunnelFleet
