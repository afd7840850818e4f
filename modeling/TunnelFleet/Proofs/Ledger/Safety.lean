import TunnelFleet.Proofs.Ledger.NodeConfigs
import TunnelFleet.Proofs.Ledger.Server

namespace TunnelFleet.Traffic

/-- However the calls of ticks over old and new views are interleaved, fail or are lost: the
committed table can be relied on, and what happens next adds at most one row behind the others. -/
theorem committed_table_safe {start t : Traffic} (hticks : start.ticks = [])
    (hstart : start.ledger.IsInitial) (h : Reach .unix start t) :
    ∃ table, t.ledger.table = .ok table ∧ table.IsSound ∧
      ∀ u, Step .unix t u →
        ∃ added, u.ledger.table = .ok ⟨table.rows ++ added⟩ ∧ added.length ≤ 1 := by
  obtain ⟨hsound, horderly⟩ := h.kept (fun _ _ => Ledger.IsSound.change) hticks hstart.isSound
  obtain ⟨table, ht, htable⟩ := hsound.table
  refine ⟨table, ht, htable, fun u hu => ?_⟩
  obtain ⟨table', added, ht', hafter, hlength⟩ := (hu.change horderly).rows hsound
  obtain rfl := Except.ok.inj (ht.symm.trans ht')
  exact ⟨added, hafter, hlength⟩

theorem committed_table_safe_small :
    Traffic.idle.ticks = [] ∧ Traffic.idle.ledger.IsInitial ∧ Reach .unix idle rivals ∧
      overtaken.ticks[1]?.bind Tick.result? =
        some (.error (.cluster (.refused (.conflict Names.allocations)))) ∧
      rivals.ledger.table.toOption = some ⟨[⟨"K", "R", "n", "10.1.0.1", "10.2.1.0/24"⟩,
        ⟨"L", "R", "m", "10.1.0.2", "10.2.2.0/24"⟩]⟩ ∧
      ∃ table, rivals.ledger.table = .ok table ∧ table.IsSound ∧
        ∀ u, Step .unix rivals u →
          ∃ added, u.ledger.table = .ok ⟨table.rows ++ added⟩ ∧ added.length ≤ 1 :=
  ⟨rfl, .inl rfl, reach_rivals, overtaken_refused, rivals_apart.1,
    committed_table_safe rfl (.inl rfl) reach_rivals⟩

/-- At every point, in the middle of ticks and after failed ones: the config maps that nodes were
given say what the first rows of their keys say in the committed table. -/
theorem published_configs_agree {start t : Traffic} (hticks : start.ticks = [])
    (hstart : start.ledger.IsInitial) (hnone : start.ledger.published = [])
    (h : Reach .unix start t) :
    ∃ table, t.ledger.table = .ok table ∧
      (∀ m ∈ t.ledger.published, ∃ row, table.findKey? row.nodeKey = some row ∧
        NodeConfig.IsFor row m) ∧
      ∀ m ∈ t.ledger.published, ∀ n ∈ t.ledger.published, NodeConfig.AreToldApart m n := by
  have hagree : start.ledger.NodesAgree := by
    intro table _ m hm
    rw [hnone] at hm
    cases hm
  obtain ⟨⟨hsound, hagree⟩, -⟩ := h.kept (P := fun l => l.IsSound ∧ l.NodesAgree)
    (fun l after hl hchange => ⟨hl.1.change hchange, hl.2.change hl.1 hchange⟩) hticks
    ⟨hstart.isSound, hagree⟩
  obtain ⟨table, ht, htable⟩ := hsound.table
  refine ⟨table, ht, hagree table ht, fun m hm n hn => ?_⟩
  obtain ⟨r, hr, hmr⟩ := hagree table ht m hm
  obtain ⟨s, hs, hns⟩ := hagree table ht n hn
  exact NodeConfig.areToldApart_of_isFor htable hr hs hmr hns

theorem published_configs_agree_small :
    Traffic.idle.ticks = [] ∧ Traffic.idle.ledger.IsInitial ∧ Traffic.idle.ledger.published = [] ∧
      Reach .unix idle rivals ∧
      rivals.ledger.published.map NodeConfig.address? =
        [some "10.1.0.2/32", some "10.1.0.1/32"] ∧
      ∃ table, rivals.ledger.table = .ok table ∧
        (∀ m ∈ rivals.ledger.published, ∃ row, table.findKey? row.nodeKey = some row ∧
          NodeConfig.IsFor row m) ∧
        ∀ m ∈ rivals.ledger.published, ∀ n ∈ rivals.ledger.published,
          NodeConfig.AreToldApart m n :=
  ⟨rfl, .inl rfl, rfl, reach_rivals, rivals_apart.2,
    published_configs_agree rfl (.inl rfl) rfl reach_rivals⟩

end TunnelFleet.Traffic
