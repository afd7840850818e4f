import TunnelFleet.Failure
import TunnelFleet.Host.Disk
import TunnelFleet.Peers.Snapshot

namespace TunnelFleet

structure Installed where
  peers : Nat
  exitCode : Int
deriving DecidableEq

structure HostActions (σ : Type) where
  read : σ → Except HostFault String
  write : σ → String → Except HostFault Unit × σ
  restart : σ → Except Failure Int × σ
  record : σ → PeerSnapshot → Int → Except Failure Unit × σ

/-- The peers that were last installed without a failure; before that there are none. -/
structure Seen where
  last : Option (Option PeerSnapshot)
deriving DecidableEq

namespace Seen

def nothing : Seen :=
  ⟨none⟩

def isNew (seen : Seen) (next : Option PeerSnapshot) : Bool :=
  seen.last != some next

def record (next : Option PeerSnapshot) : Seen :=
  ⟨some next⟩

end Seen

namespace Installer

variable {σ : Type}

def restart (host : HostActions σ) (snapshot : PeerSnapshot) (state : σ) :
    Except Failure (Option Installed) × σ :=
  match host.restart state with
  | (.error failure, state) => (.error failure, state)
  | (.ok exitCode, state) =>
      match host.record state snapshot exitCode with
      | (.error failure, state) => (.error failure, state)
      | (.ok (), state) => (.ok (some ⟨snapshot.blocks.length, exitCode⟩), state)

/-- Brings the tunnel file up to date. A file that is so already is left alone. -/
def install (host : HostActions σ) (snapshot : PeerSnapshot) (state : σ) :
    Except Failure (Option Installed) × σ :=
  match host.read state with
  | .error fault => (.error (.host fault), state)
  | .ok installed =>
      let file := assemble installed snapshot.blocks
      if file = installed then (.ok none, state)
      else
        match host.write state file with
        | (.error fault, state) => (.error (.host fault), state)
        | (.ok (), state) => restart host snapshot state

/-- Handles one view of the config maps. Peers count as seen only when they were installed without
a failure, so that a failed attempt is made again. -/
def handle (host : HostActions σ) (routerKey : String) (configMaps : List ConfigMap)
    (seen : Seen) (state : σ) : Except Failure (Option Installed) × Seen × σ :=
  match PeerSnapshot.ofConfigMaps configMaps routerKey with
  | .error error => (.error (.table error), seen, state)
  | .ok next =>
      if !seen.isNew next then (.ok none, seen, state)
      else
        match next with
        | none => (.ok none, Seen.record none, state)
        | some snapshot =>
            match install host snapshot state with
            | (.ok outcome, state) => (.ok outcome, Seen.record (some snapshot), state)
            | (.error failure, state) => (.error failure, seen, state)

end Installer

structure Site where
  file : Option Contents
  restarts : Nat
  recorded : List (PeerSnapshot × Int)
deriving DecidableEq

structure SiteAnswers where
  restart : Except HostFault Int
  record : Except HostFault Unit

namespace Site

def fresh : Site :=
  ⟨none, 0, []⟩

def read (site : Site) : Except HostFault String :=
  match site.file with
  | none => .error .notFound
  | some contents => contents.read

/-- The actions on a host that answers in a given way. Every restart counts; only what succeeds is
recorded. -/
def actions (answers : SiteAnswers) : HostActions Site where
  read := read
  write site file := (.ok (), { site with file := some (.text file) })
  restart site :=
    (match answers.restart with
      | .ok exitCode => .ok exitCode
      | .error fault => .error (.host fault),
      { site with restarts := site.restarts + 1 })
  record site snapshot exitCode :=
    match answers.record with
    | .ok () => (.ok (), { site with recorded := site.recorded ++ [(snapshot, exitCode)] })
    | .error fault => (.error (.host fault), site)

end Site

end TunnelFleet
