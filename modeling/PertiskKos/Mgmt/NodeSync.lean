import PertiskKos.Library.AddressText
import PertiskKos.Library.Lines

/-!
# Node rows from a job's log

When kubectl gives nothing, the rows of a cluster's nodes are to be refreshed from the tables
of nodes that a job has printed to its log.  The parser is given the path of the log and not
the log.  A path is one line, and on one line there is no table, so no row is ever refreshed
from a log.
-/

namespace PertiskKos.Mgmt.NodeSync

open Strings Lines Ip

structure NodeSnapshot where
  ip : Option Text
  ip6 : Option Text
  k8sVersion : Option Text
  kernelVersion : Option Text
  containerRuntime : Option Text
  kubeletStatus : Option Text
  osVersion : Option Text
  deriving DecidableEq, Repr

section Parser

/-- A line of a table: `NAME STATUS ROLES AGE VERSION INTERNAL-IP …`. -/
def parseWideLine (line : Text) : Option (Text × NodeSnapshot) :=
  match splitWhitespace line with
  | name :: status :: c :: d :: e :: f :: more =>
      let parts := name :: status :: c :: d :: e :: f :: more
      if '-' ∈ name then
        some (name,
          { ip := parts.find? fun p => (parseIpv4 p).isSome
            ip6 := parts.find? fun p => p ≠ "<none>".toList && (parseIpv6 p).isSome
            k8sVersion := parts.find? fun p => startsWith p ['v'] && p.contains '.'
            kernelVersion := none
            containerRuntime := none
            kubeletStatus := some (status.map Char.toLower)
            osVersion := none })
      else none
  | _ => none

structure Scan where
  inTable : Bool
  rows : List (Text × NodeSnapshot)

def scanLine (scan : Scan) (line : Text) : Scan :=
  let trimmed := trim line
  if startsWith trimmed "NAME ".toList && contains "INTERNAL-IP".toList trimmed then
    { scan with inTable := true }
  else if !scan.inTable then scan
  else if trimmed = [] || startsWith trimmed "==>".toList ||
      startsWith trimmed "kubectl ".toList then
    { scan with inTable := false }
  else
    match parseWideLine trimmed with
    | some row => { scan with rows := scan.rows ++ [row] }
    | none => scan

/-- The rows of all tables in a log. -/
def parseKubectlWideFromLog (log : Text) : List (Text × NodeSnapshot) :=
  ((lines log).foldl scanLine { inTable := false, rows := [] }).rows

example : (parseKubectlWideFromLog
      "kubectl get nodes\nNAME STATUS INTERNAL-IP\nlab-1 Ready <none> 42s v1.36.2 10.1.1.134\n".toList
    ).map (fun row => (row.1, row.2.ip)) =
    [("lab-1".toList, some "10.1.1.134".toList)] := by decide +kernel

end Parser

section Rows

structure NodeRow where
  clusterId : Text
  name : Text
  ip : Option Text
  ip6 : Option Text
  k8sVersion : Option Text
  osVersion : Option Text
  kernelVersion : Option Text
  containerRuntime : Option Text
  updatedAt : Text
  deriving DecidableEq, Repr

def NodeSnapshot.update (snap : NodeSnapshot) (now : Text) (row : NodeRow) : NodeRow :=
  { row with
    ip := snap.ip.or row.ip
    ip6 := snap.ip6.or row.ip6
    k8sVersion := snap.k8sVersion.or row.k8sVersion
    osVersion :=
      if row.osVersion ∈ [none, some [], some "0.1.0".toList, some "v0.1.0".toList] then
        snap.osVersion.or row.osVersion
      else row.osVersion
    kernelVersion := snap.kernelVersion.or row.kernelVersion
    containerRuntime := snap.containerRuntime.or row.containerRuntime
    updatedAt := now }

/-- The rows after the update, and how many it affected. -/
def persistSnapshotByName (now clusterId name : Text) (snap : NodeSnapshot)
    (rows : List NodeRow) : List NodeRow × Nat :=
  let affected := fun row : NodeRow => row.clusterId = clusterId && row.name = name
  (rows.map fun row => if affected row then snap.update now row else row, rows.countP affected)

/-- The files, and what kubectl answers with a kubeconfig. -/
structure World where
  content : Text → Option Text
  fetchFromKubectl : Text → Option (List (Text × NodeSnapshot))
  now : Text

def persistAll (now clusterId : Text) (rows : List NodeRow) :
    List (Text × NodeSnapshot) → List NodeRow × Nat
  | [] => (rows, 0)
  | (name, snap) :: snapshots =>
      let persisted := persistSnapshotByName now clusterId name snap rows
      let rest := persistAll now clusterId persisted.1 snapshots
      (rest.1, rest.2 + if 0 < persisted.2 then 1 else 0)

def snapshotsOfKubectl (world : World) (kubeconfig : Option Text) : List (Text × NodeSnapshot) :=
  match kubeconfig.filter fun path => (world.content path).isSome with
  | some path => (world.fetchFromKubectl path).getD []
  | none => []

/-- Refresh node rows from kubeconfig (preferred) or job log (fallback): the rows after it, and
how many snapshots had a row. -/
def syncClusterNodes (world : World) (clusterId : Text) (kubeconfig logPath : Option Text)
    (rows : List NodeRow) : List NodeRow × Nat :=
  let fetched := snapshotsOfKubectl world kubeconfig
  let snapshots :=
    if fetched = [] then (logPath.map parseKubectlWideFromLog).getD [] else fetched
  if snapshots = [] then (rows, 0) else persistAll world.now clusterId rows snapshots

end Rows

/-! ## Logs with tables -/

section Logs

/-- A line of a table, with its columns. -/
structure TableLine where
  text : Text
  name : Text
  status : Text
  roles : Text
  age : Text
  version : Text
  internalIp : Text
  more : List Text
  columns : splitWhitespace text = [name, status, roles, age, version, internalIp] ++ more

/-- A table as kubectl prints it. -/
structure Table where
  header : Text
  headings : ["NAME", "STATUS", "ROLES", "AGE", "VERSION", "INTERNAL-IP"].map String.toList <+:
    splitWhitespace header
  lines : List TableLine

inductive Segment where
  | output (line : Text)
  | table (rows : Table)

abbrev Log := List Segment

def Segment.texts : Segment → List Text
  | output line => [line]
  | table rows => rows.header :: rows.lines.map TableLine.text

def Segment.tableLines : Segment → List TableLine
  | output _ => []
  | table rows => rows.lines

variable (log : Log)

def Log.text : Text := unlines (log.flatMap Segment.texts)

/-- The line of a node in the last table that has one. -/
def Log.lineOf (name : Text) : Option TableLine :=
  ((log.flatMap Segment.tableLines).filter (·.name = name)).getLast?

def TableLine.update (line : TableLine) (now : Text) (row : NodeRow) : NodeRow :=
  { row with
    k8sVersion := some line.version
    ip := if (parseIpv4 line.internalIp).isSome then some line.internalIp else row.ip
    ip6 := if (parseIpv6 line.internalIp).isSome then some line.internalIp else row.ip6
    updatedAt := now }

/-- A row after a refresh from the log. -/
def Log.refresh (now clusterId : Text) (row : NodeRow) : NodeRow :=
  if row.clusterId = clusterId then
    match Log.lineOf log row.name with
    | some line => line.update now row
    | none => row
  else row

/-- Kubectl gives nothing, and the log is in a file whose path is one line. -/
structure FallsBack (world : World) (kubeconfig : Option Text) (path : Text) : Prop where
  nothing : snapshotsOfKubectl world kubeconfig = []
  file_eq : world.content path = some (Log.text log)
  one_line : '\n' ∉ path

end Logs

/-- On one line there is no table. -/
theorem parse_path {path : Text} (hpath : '\n' ∉ path) : parseKubectlWideFromLog path = [] := by
  rw [parseKubectlWideFromLog, lines_of_notMem hpath]
  split
  · rfl
  · rw [List.foldl_cons, List.foldl_nil, scanLine]
    split
    · rfl
    · rfl

theorem sync_path {world : World} {kubeconfig : Option Text} {path : Text} {log : Log}
    (hfalls : FallsBack log world kubeconfig path) (clusterId : Text) (rows : List NodeRow) :
    syncClusterNodes world clusterId kubeconfig (some path) rows = (rows, 0) := by
  rw [syncClusterNodes, hfalls.nothing]
  simp only [if_true, Option.map_some, Option.getD_some, parse_path hfalls.one_line]

/-- The rows are refreshed from the log at the path exactly if there is nothing to refresh: if
each row that a table names has what its line gives it and the time of the refresh. -/
theorem sync_from_log_iff (world : World) (clusterId path : Text) (kubeconfig : Option Text)
    (log : Log) (rows : List NodeRow) (hfalls : FallsBack log world kubeconfig path) :
    (syncClusterNodes world clusterId kubeconfig (some path) rows).1 =
        rows.map (Log.refresh log world.now clusterId) ↔
      ∀ row ∈ rows, row.clusterId = clusterId → ∀ line, Log.lineOf log row.name = some line →
        line.update world.now row = row := by
  rw [sync_path hfalls]
  constructor
  · intro hrows row hrow hcluster line hline
    have hself : ∀ other ∈ rows, Log.refresh log world.now clusterId other = other := by
      have hmap := hrows.symm.trans (List.map_id rows).symm
      exact List.map_inj_left.mp hmap
    have hrefresh := hself row hrow
    rwa [Log.refresh, if_pos hcluster, hline] at hrefresh
  · intro hrows
    conv => lhs; rw [← List.map_id rows]
    refine List.map_congr_left fun row hrow => ?_
    rw [Log.refresh]
    split
    · next hcluster =>
        cases hline : Log.lineOf log row.name with
        | none => rfl
        | some line => exact (hrows row hrow hcluster line hline).symm
    · rfl

section Examples

def labLine : TableLine where
  text := "lab-cp-1 Ready control-plane 75s v1.36.3 10.1.1.31 <none>".toList
  name := "lab-cp-1".toList
  status := "Ready".toList
  roles := "control-plane".toList
  age := "75s".toList
  version := "v1.36.3".toList
  internalIp := "10.1.1.31".toList
  more := ["<none>".toList]
  columns := by decide +kernel

def labLog : Log :=
  [.output "kubectl get nodes -o wide".toList,
    .table
      { header := "NAME STATUS ROLES AGE VERSION INTERNAL-IP EXTERNAL-IP".toList
        headings := by decide +kernel
        lines := [labLine] }]

def logPath : Text := "/var/lib/pertisk-mgmt/jobs/7.log".toList

def labWorld : World where
  content path := if path = logPath then some (Log.text labLog) else none
  fetchFromKubectl _ := none
  now := "2026-01-02T00:00:00Z".toList

def labRow (name : Text) : NodeRow where
  clusterId := "lab".toList
  name := name
  ip := none
  ip6 := none
  k8sVersion := none
  osVersion := none
  kernelVersion := none
  containerRuntime := none
  updatedAt := "2026-01-01T00:00:00Z".toList

/-- A row that no table names stays as it is, as it should. -/
theorem sync_from_log_iff_unnamed :
    (syncClusterNodes labWorld "lab".toList none (some logPath) [labRow "lab-wk-1".toList]).1 =
      [labRow "lab-wk-1".toList].map (Log.refresh labLog labWorld.now "lab".toList) := by
  refine (sync_from_log_iff labWorld "lab".toList logPath none labLog _
    ⟨rfl, rfl, by decide⟩).mpr ?_
  intro row hrow _ line hline
  have hnone : Log.lineOf labLog "lab-wk-1".toList = none := rfl
  rw [List.mem_singleton.mp hrow, labRow, hnone] at hline
  cases hline

/-- The row of a node whose address and version are in the log is not refreshed. -/
theorem log_not_read :
    FallsBack labLog labWorld none logPath ∧
    (syncClusterNodes labWorld "lab".toList none (some logPath) [labRow "lab-cp-1".toList]).1 ≠
      [labRow "lab-cp-1".toList].map (Log.refresh labLog labWorld.now "lab".toList) :=
  ⟨⟨rfl, rfl, by decide⟩, by decide +kernel⟩

end Examples

end PertiskKos.Mgmt.NodeSync
