import PertiskKos.Config.Document

/-!
# Partial updates of the configuration

An apply lays the incoming document over the one on the disk and reads the result.
The merge works on keys, and one field of the configuration has two: a dashboard is
written with `mgmt_url`, and read with `mgmtUrl` as well.  A partial update that uses
the second spelling leaves a document with both, which cannot be read.
-/

namespace PertiskKos.Config

open Strings Yaml

def checkVersion (cfg : MachineConfig) : Except ConfigError MachineConfig :=
  if cfg.version ≠ configVersion then .error (.unsupportedVersion cfg.version) else .ok cfg

def fromValue (v : Value) : Except ConfigError MachineConfig :=
  match machineConfigCodec.read v with
  | some cfg => checkVersion cfg
  | none => .error .parse

def fromYaml (yaml : SerdeYaml) (text : Text) : Except ConfigError MachineConfig := do
  fromValue (← parseYamlValue yaml text)

def fromYamlMerged (yaml : SerdeYaml) (incoming : Text) (previous : Option Text) :
    Except ConfigError MachineConfig := do
  let patch ← parseYamlValue yaml incoming
  match previous with
  | some text => do fromValue (merge (← parseYamlValue yaml text) patch)
  | none => fromValue patch

def stub : Text := "version: v1alpha1\nmachine:\n  type: worker\n".toList

def fromYamlPartial (yaml : SerdeYaml) (text : Text) : Except ConfigError MachineConfig :=
  fromYamlMerged yaml text (some stub)

def serialize (yaml : SerdeYaml) (cfg : MachineConfig) : Text :=
  yaml.toString (machineConfigCodec.write cfg)

def stubMachine : Value := .mapping (.cons (.string "type".toList) (.string "worker".toList) .nil)

def stubEntries : Entries :=
  .cons (.string "version".toList) (.string configVersion) <|
  .cons (.string "machine".toList) stubMachine .nil

/-- The YAML library reads back what it printed, and never a key twice. -/
structure ReadsBack (yaml : SerdeYaml) (cfg : MachineConfig) : Prop where
  stub : yaml.fromStr stub = .ok (.mapping stubEntries)
  printed : yaml.fromStr (serialize yaml cfg) = .ok (machineConfigCodec.write cfg)
  wellFormed : ∀ text v, yaml.fromStr text = .ok v → v.WellFormed

/-- Every partial update that is accepted by itself can be applied; the fields it sets
get its values and the others stay. -/
def KeepsRest (yaml : SerdeYaml) (cfg : MachineConfig) (incoming : Text) : Prop :=
  ∀ patch draft, parseYamlValue yaml incoming = .ok patch →
    fromYamlPartial yaml incoming = .ok draft →
    ∃ result, fromYamlMerged yaml incoming (some (serialize yaml cfg)) = .ok result ∧
      machineConfigCodec.overlay cfg patch = some result

/-- What a document has at a path of names. -/
def valueAt : List Text → Value → Option Value
  | [], v => some v
  | name :: path, .mapping fields => (fields.given name).bind (valueAt path)
  | _ :: _, _ => none

def SetsVersion (patch : Value) : Prop :=
  (valueAt ["version".toList] patch).isSome = true

def UsesMgmtUrlAlias (patch : Value) : Prop :=
  (valueAt ["machine".toList, "dashboard".toList, "mgmtUrl".toList] patch).isSome = true

instance (patch : Value) : Decidable (UsesMgmtUrlAlias patch) :=
  inferInstanceAs (Decidable (_ = true))

def HasMgmtUrl (cfg : MachineConfig) : Prop :=
  (cfg.machine.dashboard.bind Dashboard.mgmtUrl).isSome = true

section Merged

variable {yaml : SerdeYaml} {incoming previous : Text} {base patch : Value}

theorem fromYamlMerged_eq (hpatch : parseYamlValue yaml incoming = .ok patch)
    (hbase : yaml.fromStr previous = .ok base) :
    fromYamlMerged yaml incoming (some previous) = fromValue (merge base patch) := by
  rw [fromYamlMerged, hpatch]
  change (parseYamlValue yaml previous).bind _ = _
  rw [parseYamlValue_ok hbase]
  rfl

theorem fromYaml_eq {v : Value} (hparse : yaml.fromStr incoming = .ok v) :
    fromYaml yaml incoming = fromValue v := by
  rw [fromYaml, parseYamlValue_ok hparse]
  rfl

theorem fromValue_eq_ok {v : Value} {cfg : MachineConfig} :
    fromValue v = .ok cfg ↔
      machineConfigCodec.read v = some cfg ∧ cfg.version = configVersion := by
  rw [fromValue]
  cases machineConfigCodec.read v with
  | none => simp
  | some found =>
      by_cases hversion : found.version = configVersion
      · simp only [checkVersion, hversion]
        constructor
        · intro hok
          cases hok
          exact ⟨rfl, hversion⟩
        · rintro ⟨hfound, -⟩
          cases hfound
          rfl
      · simp only [checkVersion, if_pos hversion]
        constructor
        · intro hok
          cases hok
        · rintro ⟨hfound, hcfg⟩
          cases hfound
          exact absurd hcfg hversion

end Merged

section Clash

theorem dashboard_clash (d : Dashboard) (v : Value) :
    dashboardCodec.clash d v =
      (d.mgmtUrl.isSome && (valueAt ["mgmtUrl".toList] v).isSome) := by
  cases v with
  | mapping fields =>
      have htext := skippedText_clash
      have hu16 := Codec.optional_clash (c := Codec.u16) (fun _ _ => rfl) true
      have hbool := Codec.optional_clash (c := Codec.bool) (fun _ _ => rfl) true
      have hwrite : (skippedText.write d.mgmtUrl).isSome = d.mgmtUrl.isSome := by
        cases d.mgmtUrl <;> rfl
      change dashboardRecord.clash (dashboardFields d) fields.given = _
      simp only [dashboardRecord, dashboardFields, Equiv.coe_fn_mk, Record.clash,
        Record.columnClash_eq htext, Record.columnClash_eq hu16,
        Record.columnClash_eq hbool, Option.bind_none, Option.bind_some,
        Option.isSome_none, Bool.and_false, Bool.false_or, Bool.or_false, hwrite, valueAt,
        Option.bind_fun_some]
  | _ => simp [valueAt, dashboardCodec, Record.codec, Record.clashStruct]

theorem dashboardField_clash (field : Option Dashboard) (v : Value) :
    (dashboardCodec.optional true).clash field v =
      ((field.bind Dashboard.mgmtUrl).isSome && (valueAt ["mgmtUrl".toList] v).isSome) := by
  change Field.clashOption dashboardCodec field v = _
  cases field with
  | none => cases v <;> rfl
  | some d =>
      have hclash := dashboard_clash d v
      cases v with
      | null => simp [Field.clashOption, valueAt]
      | _ => exact hclash

/-- A field of a section clashes where the section is given. -/
theorem columnClash_section {A : Type} {field : Yaml.Field A} {path : List Text} {a : A}
    {held : Bool}
    (hfield : ∀ v, field.clash a v = (held && (valueAt path v).isSome)) (name : Text)
    (fields : Entries) :
    Record.columnClash name none field a fields.given =
      (held && (valueAt (name :: path) (.mapping fields)).isSome) := by
  rw [Record.columnClash, Record.pick_own rfl, valueAt]
  cases fields.given name with
  | none => simp
  | some v => simp [hfield]

theorem machine_clash (m : Machine) (v : Value) :
    machineCodec.clash m v =
      ((m.dashboard.bind Dashboard.mgmtUrl).isSome &&
        (valueAt ["dashboard".toList, "mgmtUrl".toList] v).isSome) := by
  cases v with
  | mapping fields =>
      have htype : ∀ a v, machineTypeCodec.required.clash a v = false := fun _ _ => rfl
      have hnetwork : ∀ a v, (networkCodec.defaulted Network.default).clash a v = false :=
        network_clash
      have hinstall := Codec.optional_clash install_clash true
      have hkubelet := Codec.optional_clash machineKubelet_clash true
      have hobservability := Codec.optional_clash observability_clash true
      have hdashboard := columnClash_section (dashboardField_clash m.dashboard)
        "dashboard".toList fields
      change machineRecord.clash (machineFields m) fields.given = _
      simp only [machineRecord, machineFields, Equiv.coe_fn_mk, Record.clash,
        Record.columnClash_eq htype, Record.columnClash_eq hnetwork,
        Record.columnClash_eq hinstall, Record.columnClash_eq hkubelet,
        Record.columnClash_eq hobservability, hdashboard, Option.bind_none,
        Option.isSome_none, Bool.and_false, Bool.false_or, Bool.or_false]
  | _ => simp [valueAt, machineCodec, Record.codec, Record.clashStruct]

theorem machineConfig_clash (cfg : MachineConfig) (v : Value) :
    machineConfigCodec.clash cfg v = true ↔ HasMgmtUrl cfg ∧ UsesMgmtUrlAlias v := by
  rw [HasMgmtUrl, UsesMgmtUrlAlias, ← Bool.and_eq_true, Bool.coe_iff_coe]
  cases v with
  | mapping fields =>
      have hversion : ∀ a v, Codec.text.required.clash a v = false := fun _ _ => rfl
      have hcluster := Codec.optional_clash cluster_clash false
      have hmachine : Record.columnClash "machine".toList none machineCodec.required
          cfg.machine fields.given = _ :=
        columnClash_section (machine_clash cfg.machine) "machine".toList fields
      change machineConfigRecord.clash (machineConfigFields cfg) fields.given = _
      simp only [machineConfigRecord, machineConfigFields, Equiv.coe_fn_mk, Record.clash,
        Record.columnClash_eq hversion, Record.columnClash_eq hcluster, hmachine,
        Option.bind_none, Option.isSome_none, Bool.and_false, Bool.false_or, Bool.or_false]
  | _ => simp [valueAt, machineConfigCodec, Record.codec, Record.clashStruct]

end Clash

section Accepted

theorem machine_admits : machineRecord.Admits
    (Entries.given (.cons (.string "type".toList) (.string "worker".toList) .nil)) := by
  have hbase : ∀ name b, Entries.given
      (.cons (.string "type".toList) (.string "worker".toList) .nil) name = some b →
      b.isMapping = false := by
    intro name b hb
    rw [Entries.given, Entries.find] at hb
    split at hb
    · cases hb
      rfl
    · cases hb
  have hfield : ∀ {A : Type} (field : Yaml.Field A) (name : Text) (v : Value),
      v.WellFormed → _ → field.accepts v :=
    fun field name v _ hread => Record.admits_field field (hbase name) v hread
  exact ⟨hfield _ _, rfl, hfield _ _, rfl, hfield _ _, rfl, hfield _ _, rfl, hfield _ _,
    rfl, hfield _ _, rfl, trivial⟩

/-- The machine section of an accepted update may leave its type out. -/
theorem machine_accepts {v : Value} (hwell : v.WellFormed)
    (hread : (machineCodec.read (merge stubMachine v)).isSome = true) :
    machineCodec.accepts v := by
  cases v with
  | mapping fields =>
      have hdistinct := Entries.WellFormed.distinct hwell
      have hfields : ∀ name v, fields.given name = some v → v.WellFormed :=
        fun name v hv => Entries.WellFormed.find hwell hv
      change (Option.map _ (machineRecord.readStruct (.mapping (mergeEntries _ fields)))).isSome
        = true at hread
      rw [Option.isSome_map, Record.readStruct, textKeys_mergeEntries,
        given_mergeEntries hdistinct] at hread
      cases hkeys : fields.textKeys with
      | false => simp [hkeys] at hread
      | true =>
          rw [hkeys] at hread
          exact ⟨hkeys, Record.accepts_of_read_merge machine_admits hfields hread⟩
  | _ => exact machineCodec.accepts_of_read _ hread

theorem machineConfig_admits : machineConfigRecord.Admits stubEntries.given := by
  have hversion : ∀ b ∈ stubEntries.given "version".toList, b.isMapping = false := by
    intro b hb
    cases hb
    rfl
  have hcluster : ∀ b ∈ stubEntries.given "cluster".toList, b.isMapping = false := by
    intro b hb
    cases hb
  exact ⟨fun v _ hread => Record.admits_field _ hversion v hread, rfl,
    fun v hwell hread => machine_accepts hwell hread, rfl,
    fun v _ hread => Record.admits_field _ hcluster v hread, rfl, trivial⟩

/-- What reading the update over the stub says about it. -/
theorem accepted_mapping {patch : Value} {draft : MachineConfig} (hwell : patch.WellFormed)
    (hread : machineConfigCodec.read (merge (.mapping stubEntries) patch) = some draft) :
    ∃ fields, patch = .mapping fields ∧ machineConfigCodec.accepts patch ∧
      ∀ v, fields.given "version".toList = some v → v.asText = some draft.version := by
  cases patch with
  | mapping fields =>
      have hdistinct := Entries.WellFormed.distinct hwell
      have hfields : ∀ name v, fields.given name = some v → v.WellFormed :=
        fun name v hv => Entries.WellFormed.find hwell hv
      obtain ⟨row, hrow, hdraft⟩ := Option.map_eq_some_iff.mp hread
      rw [merge, Record.readStruct, textKeys_mergeEntries, given_mergeEntries hdistinct]
        at hrow
      cases hkeys : fields.textKeys with
      | false => simp [hkeys] at hrow
      | true =>
          have hstub : stubEntries.textKeys = true := rfl
          rw [hkeys, hstub, Bool.and_true, if_pos rfl] at hrow
          have haccepts := Record.accepts_of_read_merge machineConfig_admits hfields
            (by rw [hrow]; rfl)
          refine ⟨fields, rfl, ⟨hkeys, haccepts⟩, ?_⟩
          intro v hv
          have hhead := Record.read_head hrow
          rw [mergeGiven, hv] at hhead
          change (mergeInto (some (.string configVersion)) v).asText = some row.1 at hhead
          rw [mergeInto, merge_of_not_mapping rfl] at hhead
          rw [hhead, ← hdraft]
          rfl
  | null => cases hread
  | bool _ => cases hread
  | number _ => cases hread
  | string _ => cases hread
  | sequence _ => cases hread

/-- The version of a configuration with an update laid over it. -/
theorem overlay_version {cfg result : MachineConfig} {fields : Entries}
    (hoverlay : machineConfigCodec.overlay cfg (.mapping fields) = some result) :
    Codec.text.required.patched cfg.version (fields.given "version".toList) =
      some result.version := by
  obtain ⟨row, hrow, hresult⟩ := Option.map_eq_some_iff.mp hoverlay
  have hhead := Record.overlay_head hrow
  rw [← hresult]
  exact hhead

end Accepted

/-- A partial update can be applied and keeps the rest exactly when the resulting
version is the known one and it does not give the management URL under its second name
where the configuration on the disk has one. -/
theorem merged_keeps_rest_iff {yaml : SerdeYaml} {cfg draft : MachineConfig}
    {incoming : Text} {patch : Value} (hyaml : ReadsBack yaml cfg)
    (hparse : parseYamlValue yaml incoming = .ok patch)
    (haccepted : fromYamlPartial yaml incoming = .ok draft) :
    (∃ result, fromYamlMerged yaml incoming (some (serialize yaml cfg)) = .ok result ∧
        machineConfigCodec.overlay cfg patch = some result) ↔
      (cfg.version = configVersion ∨ SetsVersion patch) ∧
        ¬ (HasMgmtUrl cfg ∧ UsesMgmtUrlAlias patch) := by
  obtain ⟨cleaned, hcleaned⟩ := fromStr_of_parseYamlValue hparse
  have hwell : patch.WellFormed := hyaml.wellFormed cleaned patch hcleaned
  rw [fromYamlPartial, fromYamlMerged_eq hparse hyaml.stub, fromValue_eq_ok] at haccepted
  obtain ⟨hdraft, hdraftVersion⟩ := haccepted
  obtain ⟨fields, rfl, haccepts, hversion⟩ := accepted_mapping hwell hdraft
  obtain ⟨result, hresult⟩ :=
    Option.isSome_iff_exists.mp (machineConfigCodec.overlay_isSome cfg _ haccepts)
  have hread := machineConfigCodec.read_merge cfg _ hwell haccepts
  have hresultVersion : result.version = configVersion ↔
      cfg.version = configVersion ∨ SetsVersion (.mapping fields) := by
    have hoverlay := overlay_version hresult
    rw [SetsVersion, valueAt]
    cases hgiven : fields.given "version".toList with
    | none =>
        rw [hgiven, Field.patched, Option.some.injEq] at hoverlay
        simp [hoverlay]
    | some v =>
        rw [hgiven] at hoverlay
        have hsame := (hversion v hgiven).symm.trans hoverlay
        rw [Option.some.injEq] at hsame
        simp [← hsame, hdraftVersion, valueAt]
  rw [← hresultVersion, ← machineConfig_clash, fromYamlMerged_eq hparse hyaml.printed]
  constructor
  · rintro ⟨out, hout, hoverlay⟩
    rw [fromValue_eq_ok, hread] at hout
    obtain ⟨hfound, houtVersion⟩ := hout
    rw [hresult, Option.some.injEq] at hoverlay
    refine ⟨hoverlay ▸ houtVersion, ?_⟩
    intro hclash
    rw [if_pos hclash] at hfound
    cases hfound
  · rintro ⟨hresultVersion, hclash⟩
    refine ⟨result, ?_, hresult⟩
    rw [fromValue_eq_ok, hread, if_neg hclash]
    exact ⟨hresult, hresultVersion⟩

section Lab

/-- A control plane whose console shows the management URL. -/
def labConfig : MachineConfig where
  version := configVersion
  machine :=
    { machineType := .controlplane
      network := { hostname := some "lab-cp-1".toList, interfaces := [], nameservers := [] }
      install := none
      dashboard := some
        { theme := none, border := none, background := none, cols := none, rows := none,
          utf8 := none, mgmtUrl := some "https://mgmt.lab".toList }
      kubelet := none
      observability := none }
  cluster := none

def labDocument : Text :=
  unlines ["version: v1alpha1".toList, "machine:".toList, "  type: controlplane".toList,
    "  network:".toList, "    hostname: lab-cp-1".toList, "    interfaces: []".toList,
    "    nameservers: []".toList, "  dashboard:".toList,
    "    mgmt_url: https://mgmt.lab".toList, "cluster: null".toList]

/-- An update of one field of the dashboard. -/
def dashboardUpdate (name value : Text) : Value :=
  .mapping (.cons (.string "machine".toList) (.mapping (.cons (.string "dashboard".toList)
    (.mapping (.cons (.string name) (.string value) .nil)) .nil)) .nil)

def themeUpdate : Value := dashboardUpdate "theme".toList "nord".toList

def aliasUpdate : Value := dashboardUpdate "mgmtUrl".toList "https://new.lab".toList

def themeText : Text :=
  unlines ["machine:".toList, "  dashboard:".toList, "    theme: nord".toList]

def aliasText : Text :=
  unlines ["machine:".toList, "  dashboard:".toList,
    "    mgmtUrl: https://new.lab".toList]

/-- The YAML library on the texts of the example. -/
def labYaml : SerdeYaml where
  fromStr text :=
    if text = stub then .ok (.mapping stubEntries)
    else if text = labDocument then .ok (machineConfigCodec.write labConfig)
    else if text = themeText then .ok themeUpdate
    else if text = aliasText then .ok aliasUpdate
    else .error "unexpected end of stream".toList
  toString _ := labDocument

def draftWith (dashboard : Dashboard) : MachineConfig where
  version := configVersion
  machine :=
    { machineType := .worker, network := Network.default, install := none
      dashboard := some dashboard, kubelet := none, observability := none }
  cluster := none

def themeDraft : MachineConfig :=
  draftWith
    { theme := some "nord".toList, border := none, background := none, cols := none
      rows := none, utf8 := none, mgmtUrl := none }

def aliasDraft : MachineConfig :=
  draftWith
    { theme := none, border := none, background := none, cols := none, rows := none
      utf8 := none, mgmtUrl := some "https://new.lab".toList }

theorem labYaml_reads :
    labYaml.fromStr stub = .ok (.mapping stubEntries) ∧
      labYaml.fromStr labDocument = .ok (machineConfigCodec.write labConfig) ∧
      labYaml.fromStr themeText = .ok themeUpdate ∧
      labYaml.fromStr aliasText = .ok aliasUpdate := by
  decide +kernel

theorem labYaml_stub : labYaml.fromStr stub = .ok (.mapping stubEntries) := labYaml_reads.1

theorem labYaml_theme : labYaml.fromStr themeText = .ok themeUpdate := labYaml_reads.2.2.1

theorem labYaml_alias : labYaml.fromStr aliasText = .ok aliasUpdate := labYaml_reads.2.2.2

theorem labReadsBack : ReadsBack labYaml labConfig where
  stub := labYaml_stub
  printed := labYaml_reads.2.1
  wellFormed text v hparse := by
    simp only [labYaml] at hparse
    split at hparse
    · cases hparse
      decide +kernel
    · split at hparse
      · cases hparse
        decide +kernel
      · split at hparse
        · cases hparse
          decide +kernel
        · split at hparse
          · cases hparse
            decide +kernel
          · cases hparse

theorem partial_lab {text : Text} {update : Value} {draft : MachineConfig}
    (htext : labYaml.fromStr text = .ok update)
    (hdraft : fromValue (merge (.mapping stubEntries) update) = .ok draft) :
    fromYamlPartial labYaml text = .ok draft := by
  rw [fromYamlPartial, fromYamlMerged_eq (parseYamlValue_ok htext) labYaml_stub, hdraft]

theorem merged_keeps_rest_lab :
    ∃ result, fromYamlMerged labYaml themeText (some (serialize labYaml labConfig)) =
        .ok result ∧
      machineConfigCodec.overlay labConfig themeUpdate = some result :=
  (merged_keeps_rest_iff labReadsBack (parseYamlValue_ok labYaml_theme)
    (@partial_lab _ _ themeDraft labYaml_theme rfl)).mpr
    ⟨.inl rfl, fun hclash => absurd hclash.2 (by decide)⟩

/-- The second spelling over the first one. -/
theorem merged_two_spellings : ¬ KeepsRest labYaml labConfig aliasText := by
  intro hkeeps
  have hparse := parseYamlValue_ok labYaml_alias
  obtain ⟨result, hresult, -⟩ := hkeeps aliasUpdate aliasDraft hparse
    (partial_lab labYaml_alias rfl)
  rw [fromYamlMerged_eq hparse labReadsBack.printed] at hresult
  cases hresult

end Lab

end PertiskKos.Config
