import PertiskKos.Config.Partial
import PertiskKos.Library.Columns

/-!
# Filling in the management URL

A document whose dashboard has no URL gets the public one, under the first spelling of the
key.  A document that gives the second spelling, without a value, then has both.
-/

namespace PertiskKos.Config

open Strings Yaml

section Code

/-- The mapping under a key. -/
def mappingAt (name : Text) (fields : Entries) : Option Entries :=
  match fields.find (.string name) with
  | some (.mapping entries) => some entries
  | _ => none

def existingUrl (dashboard : Entries) : Option Text :=
  let found := match dashboard.find (.string "mgmt_url".toList) with
    | some v => some v
    | none => dashboard.find (.string "mgmtUrl".toList)
  ((found.bind Value.asText).map trim).filter (· ≠ [])

/-- The root with a machine section. -/
def withMachine (root : Entries) : Entries :=
  if (root.find (.string "machine".toList)).isSome then root
  else root.insert (.string "machine".toList) (.mapping .nil)

/-- The machine section with a dashboard that is a mapping. -/
def withDashboard (machine : Entries) : Entries :=
  if (mappingAt "dashboard".toList machine).isSome then machine
  else machine.insert (.string "dashboard".toList) (.mapping .nil)

def withUrl (url : Text) (root machine dashboard : Entries) : Value :=
  .mapping (root.insert (.string "machine".toList) (.mapping
    (machine.insert (.string "dashboard".toList) (.mapping
      (dashboard.insert (.string "mgmt_url".toList) (.string url))))))

def cleanUrl (publicUrl : Text) : Text := trimEndMatches ['/'] (trim publicUrl)

/-- The document with the URL; nothing if it has one already. -/
def filledDocument (url : Text) : Value → Except ConfigError (Option Value)
  | .mapping root =>
      match mappingAt "machine".toList (withMachine root) with
      | none => .error (.msg "machine must be a mapping".toList)
      | some machine =>
          match mappingAt "dashboard".toList (withDashboard machine) with
          | none => .error (.msg "dashboard must be a mapping".toList)
          | some dashboard =>
              if (existingUrl dashboard).isSome then .ok none
              else .ok (some (withUrl url (withMachine root) (withDashboard machine) dashboard))
  | _ => .error (.msg "root must be a mapping".toList)

/-- Fill `machine.dashboard.mgmt_url` from the mgmt Public URL when the YAML
omits it or leaves it empty. An explicit URL in the document is kept. -/
def ensureDashboardMgmtUrl (yaml : SerdeYaml) (text publicUrl : Text) :
    Except ConfigError Text :=
  let url := cleanUrl publicUrl
  if url = [] then .ok text
  else do
    let doc ← parseYamlValue yaml text
    match ← filledDocument url doc with
    | none => pure text
    | some filled => pure (yaml.toString filled)

end Code

section Columns

def emptyDashboard : Dashboard where
  theme := none
  border := none
  background := none
  cols := none
  rows := none
  utf8 := none
  mgmtUrl := none

theorem machine_column : machineConfigRecord.At "machine".toList none machineCodec.required
    (fun row => row.2.1) fun machine row => (row.1, machine, row.2.2) :=
  .there (by decide) (by decide) (.here (by decide))

theorem dashboard_column : machineRecord.At "dashboard".toList none (dashboardCodec.optional true)
    (fun row => row.2.2.2.1)
    fun dashboard row => (row.1, row.2.1, row.2.2.1, dashboard, row.2.2.2.2) :=
  .there (by decide) (by decide) (.there (by decide) (by decide)
    (.there (by decide) (by decide) (.here (by decide))))

theorem mgmtUrl_column : dashboardRecord.At "mgmt_url".toList (some "mgmtUrl".toList) skippedText
    (fun row => row.2.2.2.2.2.2.1)
    fun url row => (row.1, row.2.1, row.2.2.1, row.2.2.2.1, row.2.2.2.2.1, row.2.2.2.2.2.1, url,
      row.2.2.2.2.2.2.2) :=
  .there (by decide) (by decide) (.there (by decide) (by decide) (.there (by decide) (by decide)
    (.there (by decide) (by decide) (.there (by decide) (by decide)
      (.there (by decide) (by decide) (.here (by decide)))))))

end Columns

section Sections

variable {fields machine dashboard : Entries} {draft : MachineConfig} {m : Machine}

theorem mappingAt_eq {name : Text} {entries : Entries} :
    mappingAt name fields = some entries ↔ fields.given name = some (.mapping entries) := by
  change (match fields.given name with | some (.mapping entries) => some entries | _ => none) =
    some entries ↔ _
  split
  · next heq => simp [heq]
  · next hnot => exact iff_of_false (fun h => by cases h) fun h => hnot _ h

theorem mappingAt_insert (name : Text) (entries : Entries) :
    mappingAt name (fields.insert (.string name) (.mapping entries)) = some entries := by
  rw [mappingAt_eq, Entries.given_insert, Function.update_self]

/-- Adding an empty machine section changes nothing of what is read over the stub. -/
theorem read_withMachine (hdistinct : fields.Distinct) :
    machineConfigCodec.read (merge (.mapping stubEntries) (.mapping (withMachine fields))) =
      machineConfigCodec.read (merge (.mapping stubEntries) (.mapping fields)) := by
  rw [withMachine]
  split
  · rfl
  · next hnone =>
      have habsent : fields.given "machine".toList = none :=
        Option.not_isSome_iff_eq_none.mp hnone
      have hsame : (mergeEntries stubEntries
          (fields.insert (.string "machine".toList) (.mapping .nil))).given =
            (mergeEntries stubEntries fields).given := by
        rw [given_mergeEntries hdistinct, given_mergeEntries hdistinct.insert,
          Entries.given_insert, Record.mergeGiven_update, Function.update_eq_self_iff,
          mergeGiven, habsent]
        rfl
      refine Option.ext fun cfg => ?_
      rw [machineConfigCodec, Record.codec_read_merge, Record.codec_read_merge, hsame,
        Entries.textKeys_insert]

/-- The machine section of an accepted document. -/
theorem machine_section (hdistinct : fields.Distinct)
    (hread : machineConfigCodec.read (merge (.mapping stubEntries) (.mapping fields)) =
      some draft) :
    ∃ machine, mappingAt "machine".toList (withMachine fields) = some machine ∧
      machineCodec.read (merge stubMachine (.mapping machine)) = some draft.machine := by
  have hdistinct' : (withMachine fields).Distinct := by
    rw [withMachine]
    split
    · exact hdistinct
    · exact hdistinct.insert
  rw [← read_withMachine hdistinct] at hread
  obtain ⟨-, hrow⟩ := Record.codec_read_merge.mp hread
  have hmachine := Record.read_at machine_column hrow
  rw [given_mergeEntries hdistinct', Record.pick_own rfl, Option.bind_some] at hmachine
  have hthere : ∃ v, (withMachine fields).given "machine".toList = some v := by
    rw [withMachine]
    split
    · next hsome => exact Option.isSome_iff_exists.mp hsome
    · exact ⟨.mapping .nil, by rw [Entries.given_insert, Function.update_self]⟩
  obtain ⟨v, hv⟩ := hthere
  rw [mergeGiven, hv] at hmachine
  change machineCodec.read (merge stubMachine v) = some draft.machine at hmachine
  cases v with
  | mapping machine => exact ⟨machine, mappingAt_eq.mpr hv, hmachine⟩
  | null => cases hmachine
  | bool _ => cases hmachine
  | number _ => cases hmachine
  | string _ => cases hmachine
  | sequence _ => cases hmachine

/-- The dashboard of a machine section, and the section with one. -/
theorem dashboard_section (hdistinct : machine.Distinct)
    (hread : machineCodec.read (merge stubMachine (.mapping machine)) = some m) :
    ∃ dashboard, mappingAt "dashboard".toList (withDashboard machine) = some dashboard ∧
      (mappingAt "dashboard".toList machine = some dashboard ∨
        mappingAt "dashboard".toList machine = none ∧ dashboard = .nil) ∧
      dashboardCodec.read (.mapping dashboard) = some (m.dashboard.getD emptyDashboard) ∧
      (m.dashboard = none → dashboard = .nil) ∧
      machineCodec.read (merge stubMachine (.mapping (withDashboard machine))) =
        some { m with dashboard := some (m.dashboard.getD emptyDashboard) } := by
  obtain ⟨-, hrow⟩ := Record.codec_read_merge.mp hread
  have hfield := Record.read_at dashboard_column hrow
  rw [given_mergeEntries hdistinct, Record.pick_own rfl, Option.bind_some] at hfield
  have hgiven : mergeGiven (Entries.given (.cons (.string "type".toList)
      (.string "worker".toList) .nil)) machine.given "dashboard".toList =
        machine.given "dashboard".toList := by
    rw [mergeGiven]
    cases machine.given "dashboard".toList <;> rfl
  rw [hgiven] at hfield
  change Field.readOption dashboardCodec (machine.given "dashboard".toList) =
    some m.dashboard at hfield
  cases hat : mappingAt "dashboard".toList machine with
  | some dashboard =>
      have hthere := mappingAt_eq.mp hat
      rw [hthere, Field.readOption_of_ne _ Value.noConfusion] at hfield
      obtain ⟨d, hd, hsome⟩ := Option.map_eq_some_iff.mp hfield
      have hsame : withDashboard machine = machine := by
        rw [withDashboard, hat]
        rfl
      rw [hsame, ← hsome]
      refine ⟨dashboard, hat, .inl rfl, hd, fun h => (Option.some_ne_none _ h).elim, ?_⟩
      rw [hread, Option.getD_some, hsome]
  | none =>
      have hnone : m.dashboard = none := by
        cases hvalue : machine.given "dashboard".toList with
        | none =>
            rw [hvalue] at hfield
            exact (Option.some.inj hfield).symm
        | some v =>
            rw [hvalue] at hfield
            cases v with
            | null => exact (Option.some.inj hfield).symm
            | mapping entries =>
                rw [mappingAt_eq.mpr hvalue] at hat
                cases hat
            | bool _ => cases hfield
            | number _ => cases hfield
            | string _ => cases hfield
            | sequence _ => cases hfield
      have hadded : withDashboard machine =
          machine.insert (.string "dashboard".toList) (.mapping .nil) := by
        rw [withDashboard, hat]
        rfl
      rw [hadded, hnone]
      refine ⟨.nil, mappingAt_insert _ _, .inr ⟨rfl, rfl⟩, rfl, fun _ => rfl, ?_⟩
      exact Record.codec_read_merge_insert dashboard_column hdistinct hread rfl

/-- The URL that is found is the one that is read. -/
theorem existingUrl_eq {d : Dashboard}
    (hread : dashboardCodec.read (.mapping dashboard) = some d) :
    existingUrl dashboard = (d.mgmtUrl.map trim).filter (· ≠ []) := by
  obtain ⟨-, hrow⟩ := Record.codec_read_mapping.mp hread
  have hfield := Record.read_at mgmtUrl_column hrow
  change (pick "mgmt_url".toList (some "mgmtUrl".toList) dashboard.given).bind
    (Field.readOption Codec.text) = some d.mgmtUrl at hfield
  have htext : ∀ value, Field.readOption Codec.text value = some d.mgmtUrl →
      value.bind Value.asText = d.mgmtUrl := by
    intro value hvalue
    cases value with
    | none => exact Option.some.inj hvalue
    | some v =>
        cases v with
        | null => exact Option.some.inj hvalue
        | string text => exact Option.some.inj hvalue
        | bool _ => cases hvalue
        | number _ => cases hvalue
        | sequence _ => cases hvalue
        | mapping _ => cases hvalue
  have hfound : (match dashboard.given "mgmt_url".toList with
      | some v => some v
      | none => dashboard.given "mgmtUrl".toList).bind Value.asText = d.mgmtUrl := by
    rw [pick, Option.bind_some] at hfield
    cases hown : dashboard.given "mgmt_url".toList with
    | none =>
        rw [hown] at hfield
        exact htext _ hfield
    | some v =>
        rw [hown] at hfield
        cases hother : dashboard.given "mgmtUrl".toList with
        | none =>
            rw [hother] at hfield
            exact htext _ hfield
        | some second =>
            rw [hother] at hfield
            cases hfield
  exact congrArg (fun found : Option Text => (found.map trim).filter (· ≠ [])) hfound

end Sections

section Filled

/-- The URL that a configuration has, blank or not. -/
def ownUrl (cfg : MachineConfig) : Option Text := cfg.machine.dashboard.bind Dashboard.mgmtUrl

def hasOwnUrl (cfg : MachineConfig) : Bool := (ownUrl cfg).any fun url => trim url ≠ []

def fillUrl (url : Text) (cfg : MachineConfig) : MachineConfig :=
  { cfg with
    machine := { cfg.machine with
      dashboard := some { cfg.machine.dashboard.getD emptyDashboard with mgmtUrl := some url } } }

/-- The result is accepted and has its own URL or else the public one, and what the document
had in every other field. -/
def FillsUrl (yaml : SerdeYaml) (text publicUrl : Text) (cfg : MachineConfig) : Prop :=
  ∃ out, ensureDashboardMgmtUrl yaml text publicUrl = .ok out ∧
    fromYamlPartial yaml out =
      .ok (if hasOwnUrl cfg then cfg else fillUrl (cleanUrl publicUrl) cfg)

variable {yaml : SerdeYaml} {text publicUrl url : Text} {fields machine dashboard : Entries}
variable {draft : MachineConfig}

theorem hasOwnUrl_eq {d : Dashboard} (hread : dashboardCodec.read (.mapping dashboard) = some d) :
    (existingUrl dashboard).isSome = d.mgmtUrl.any fun url => trim url ≠ [] := by
  rw [existingUrl_eq hread]
  cases d.mgmtUrl with
  | none => rfl
  | some url => by_cases hblank : trim url = [] <;> simp [hblank]

theorem fillUrl_eq_self (hblank : hasOwnUrl draft = false) :
    draft = fillUrl [] draft ↔ ownUrl draft = some [] := by
  obtain ⟨version, machine, cluster⟩ := draft
  obtain ⟨machineType, network, install, dashboard, kubelet, observability⟩ := machine
  cases dashboard with
  | none => simp [fillUrl, ownUrl]
  | some d =>
      obtain ⟨theme, border, background, cols, rows, utf8, mgmtUrl⟩ := d
      simp [fillUrl, ownUrl]

theorem usesAlias_iff
    (hmachine : mappingAt "machine".toList (withMachine fields) = some machine)
    (hdashboard : mappingAt "dashboard".toList machine = some dashboard ∨
      mappingAt "dashboard".toList machine = none ∧ dashboard = .nil) :
    UsesMgmtUrlAlias (.mapping fields) ↔ (dashboard.given "mgmtUrl".toList).isSome = true := by
  have hwith : (withMachine fields).given "machine".toList = some (.mapping machine) :=
    mappingAt_eq.mp hmachine
  have hbelow : (valueAt ["dashboard".toList, "mgmtUrl".toList] (.mapping machine)).isSome =
      (dashboard.given "mgmtUrl".toList).isSome := by
    rcases hdashboard with hat | ⟨hat, rfl⟩
    · rw [valueAt, mappingAt_eq.mp hat, Option.bind_some, valueAt]
      cases dashboard.given "mgmtUrl".toList <;> rfl
    · rw [valueAt]
      cases hgiven : machine.given "dashboard".toList with
      | none => rfl
      | some v =>
          cases v with
          | mapping entries =>
              rw [mappingAt_eq.mpr hgiven] at hat
              cases hat
          | _ => rfl
  rw [UsesMgmtUrlAlias, ← hbelow, valueAt]
  rw [withMachine] at hwith
  split at hwith
  · rw [hwith, Option.bind_some]
  · next hnone =>
      have habsent : fields.given "machine".toList = none := Option.not_isSome_iff_eq_none.mp hnone
      rw [Entries.given_insert, Function.update_self] at hwith
      obtain rfl : Entries.nil = machine := Value.mapping.inj (Option.some.inj hwith)
      rw [habsent]
      rfl

/-- What is read of the document with the URL. -/
theorem read_withUrl (hdistinct : fields.Distinct) (hmachineDistinct : machine.Distinct)
    (hread : machineConfigCodec.read (merge (.mapping stubEntries) (.mapping fields)) =
      some draft)
    (hmachine : machineCodec.read (merge stubMachine (.mapping (withDashboard machine))) =
      some { draft.machine with
        dashboard := some (draft.machine.dashboard.getD emptyDashboard) })
    (hdashboard : dashboardCodec.read (.mapping dashboard) =
      some (draft.machine.dashboard.getD emptyDashboard)) :
    machineConfigCodec.read (merge (.mapping stubEntries)
        (withUrl url (withMachine fields) (withDashboard machine) dashboard)) =
      if (dashboard.given "mgmtUrl".toList).isSome then none else some (fillUrl url draft) := by
  have hdistinct' : (withMachine fields).Distinct := by
    rw [withMachine]
    split
    · exact hdistinct
    · exact hdistinct.insert
  have hmachineDistinct' : (withDashboard machine).Distinct := by
    rw [withDashboard]
    split
    · exact hmachineDistinct
    · exact hmachineDistinct.insert
  have hbase : Entries.given (.cons (.string "type".toList) (.string "worker".toList) .nil)
      "dashboard".toList = none := rfl
  have hoptional : ∀ v : Value, v.isMapping = true → (dashboardCodec.optional true).read
      (some (mergeInto (Entries.given (.cons (.string "type".toList)
        (.string "worker".toList) .nil) "dashboard".toList) v)) =
      (dashboardCodec.read v).map some := by
    intro v hmapping
    rw [hbase]
    exact Field.readOption_of_ne _ (by rintro rfl; cases hmapping)
  rw [← read_withMachine hdistinct] at hread
  cases halias : (dashboard.given "mgmtUrl".toList).isSome with
  | true =>
      have hinner : dashboardCodec.read (.mapping
          (dashboard.insert (.string "mgmt_url".toList) (.string url))) = none :=
        Record.codec_read_insert_clash mgmtUrl_column (by decide) halias
      have hmiddle : machineCodec.read (merge stubMachine (.mapping ((withDashboard machine).insert
          (.string "dashboard".toList) (.mapping
            (dashboard.insert (.string "mgmt_url".toList) (.string url)))))) = none :=
        Record.codec_read_merge_insert_none dashboard_column hmachineDistinct'
          ((hoptional _ rfl).trans (congrArg (Option.map some) hinner))
      exact Record.codec_read_merge_insert_none machine_column hdistinct' hmiddle
  | false =>
      have hinner := Record.codec_read_insert (v := .string url) (a := some url) mgmtUrl_column
        hdashboard (by decide) (Option.isSome_eq_false_iff.mp halias |> Option.isNone_iff_eq_none.mp)
        rfl
      have hmiddle := Record.codec_read_merge_insert dashboard_column hmachineDistinct' hmachine
        (v := .mapping (dashboard.insert (.string "mgmt_url".toList) (.string url)))
        ((hoptional _ rfl).trans (congrArg (Option.map some) hinner))
      exact Record.codec_read_merge_insert machine_column hdistinct' hread hmiddle

/-- The URL is filled in if and only if the document has one, or does not use the second
spelling and the public URL is more than slashes. -/
theorem management_url_filled_iff {yaml : SerdeYaml} {text publicUrl : Text} {doc : Value}
    {draft : MachineConfig} (hstub : yaml.fromStr stub = .ok (.mapping stubEntries))
    (hwell : ∀ text v, yaml.fromStr text = .ok v → v.WellFormed)
    (hprinted : ∀ filled, filledDocument (cleanUrl publicUrl) doc = .ok (some filled) →
      yaml.fromStr (yaml.toString filled) = .ok filled)
    (hparse : parseYamlValue yaml text = .ok doc)
    (haccepted : fromYamlPartial yaml text = .ok draft) :
    FillsUrl yaml text publicUrl draft ↔
      hasOwnUrl draft = true ∨ (cleanUrl publicUrl ≠ [] ∧ ¬ UsesMgmtUrlAlias doc) ∨
        (cleanUrl publicUrl = [] ∧ ownUrl draft = some []) := by
  have hkept : fromYamlPartial yaml text =
      .ok (if hasOwnUrl draft then draft else fillUrl (cleanUrl publicUrl) draft) ↔
        hasOwnUrl draft = true ∨ draft = fillUrl (cleanUrl publicUrl) draft := by
    rw [haccepted]
    cases hasOwnUrl draft <;> simp
  rw [FillsUrl, ensureDashboardMgmtUrl]
  by_cases hurl : cleanUrl publicUrl = []
  · simp only [hurl, if_true, Except.ok.injEq, exists_eq_left', ne_eq, not_true_eq_false,
      false_and, true_and, false_or]
    rw [hurl] at hkept
    rw [hkept]
    cases hown : hasOwnUrl draft with
    | true => simp
    | false => simp [fillUrl_eq_self hown]
  · obtain ⟨cleaned, hcleaned⟩ := fromStr_of_parseYamlValue hparse
    have hdocWell : doc.WellFormed := hwell cleaned doc hcleaned
    have hread := haccepted
    rw [fromYamlPartial, fromYamlMerged_eq hparse hstub, fromValue_eq_ok] at hread
    obtain ⟨hread, hversion⟩ := hread
    obtain ⟨fields, rfl, -⟩ := accepted_mapping hdocWell hread
    have hdistinct := Entries.WellFormed.distinct hdocWell
    obtain ⟨machine, hmachine, hmachineRead⟩ := machine_section hdistinct hread
    have hmachineDistinct : machine.Distinct := by
      have hthere := mappingAt_eq.mp hmachine
      rw [withMachine] at hthere
      split at hthere
      · exact Entries.WellFormed.distinct (Entries.WellFormed.find hdocWell hthere)
      · rw [Entries.given_insert, Function.update_self] at hthere
        rw [← Value.mapping.inj (Option.some.inj hthere)]
        trivial
    obtain ⟨dashboard, hdashboard, hat, hdashboardRead, -, hmachineRead'⟩ :=
      dashboard_section hmachineDistinct hmachineRead
    have hexisting : (existingUrl dashboard).isSome = hasOwnUrl draft := by
      rw [hasOwnUrl_eq hdashboardRead, hasOwnUrl, ownUrl]
      cases draft.machine.dashboard <;> rfl
    have hfilled : filledDocument (cleanUrl publicUrl) (.mapping fields) =
        if hasOwnUrl draft then .ok none
        else .ok (some (withUrl (cleanUrl publicUrl) (withMachine fields) (withDashboard machine)
          dashboard)) := by
      rw [filledDocument, hmachine]
      dsimp only
      rw [hdashboard]
      dsimp only
      rw [hexisting]
    rw [if_neg hurl, hparse]
    change (∃ out, (filledDocument _ _).bind _ = .ok out ∧ _) ↔ _
    rw [hfilled, usesAlias_iff hmachine hat]
    cases hown : hasOwnUrl draft with
    | true => simpa [Except.bind, pure, Except.pure] using haccepted
    | false =>
        have hprint := hprinted _ (hfilled.trans (by rw [hown]; rfl))
        have hout : fromYamlPartial yaml (yaml.toString (withUrl (cleanUrl publicUrl)
            (withMachine fields) (withDashboard machine) dashboard)) =
              .ok (fillUrl (cleanUrl publicUrl) draft) ↔
            ¬ (dashboard.given "mgmtUrl".toList).isSome = true := by
          rw [fromYamlPartial, fromYamlMerged_eq (parseYamlValue_ok hprint) hstub, fromValue_eq_ok,
            read_withUrl hdistinct hmachineDistinct hread hmachineRead' hdashboardRead]
          cases (dashboard.given "mgmtUrl".toList).isSome with
          | true => simp
          | false => simpa [fillUrl] using hversion
        simpa [Except.bind, pure, Except.pure, hurl] using hout

end Filled

section Console

def consoleUrl : Text := "https://mgmt.lab/".toList

/-- A dashboard with the second spelling and nothing behind it. -/
def blankText : Text :=
  unlines ["machine:".toList, "  dashboard:".toList, "    mgmtUrl: ''".toList]

def blankUpdate : Value := dashboardUpdate "mgmtUrl".toList []

/-- The dashboard of an update with the URL behind its one field. -/
def consoleUpdate (name value : Text) : Value :=
  .mapping (.cons (.string "machine".toList) (.mapping (.cons (.string "dashboard".toList)
    (.mapping (.cons (.string name) (.string value)
      (.cons (.string "mgmt_url".toList) (.string "https://mgmt.lab".toList) .nil))) .nil)) .nil)

def themeFilled : Value := consoleUpdate "theme".toList "nord".toList

def blankFilled : Value := consoleUpdate "mgmtUrl".toList []

def themeFilledText : Text :=
  unlines ["machine:".toList, "  dashboard:".toList, "    theme: nord".toList,
    "    mgmt_url: https://mgmt.lab".toList]

def blankFilledText : Text :=
  unlines ["machine:".toList, "  dashboard:".toList, "    mgmtUrl: ''".toList,
    "    mgmt_url: https://mgmt.lab".toList]

/-- The YAML library on the texts of the two examples. -/
def consoleYaml : SerdeYaml where
  fromStr text :=
    if text = stub then .ok (.mapping stubEntries)
    else if text = themeText then .ok themeUpdate
    else if text = themeFilledText then .ok themeFilled
    else if text = blankText then .ok blankUpdate
    else if text = blankFilledText then .ok blankFilled
    else .error "unexpected end of stream".toList
  toString v := if v = themeFilled then themeFilledText else blankFilledText

theorem consoleYaml_reads :
    consoleYaml.fromStr stub = .ok (.mapping stubEntries) ∧
      consoleYaml.fromStr themeText = .ok themeUpdate := by
  decide +kernel

theorem consoleYaml_stub : consoleYaml.fromStr stub = .ok (.mapping stubEntries) :=
  consoleYaml_reads.1

theorem consoleYaml_theme : consoleYaml.fromStr themeText = .ok themeUpdate :=
  consoleYaml_reads.2

theorem consoleYaml_wellFormed (text : Text) (v : Value)
    (hparse : consoleYaml.fromStr text = .ok v) : v.WellFormed := by
  have hall : ∀ v ∈ [Value.mapping stubEntries, themeUpdate, themeFilled, blankUpdate,
      blankFilled], v.WellFormed := by
    decide +kernel
  refine hall v ?_
  simp only [consoleYaml] at hparse
  split_ifs at hparse <;> cases hparse <;> simp

theorem consoleYaml_printed (filled : Value)
    (hfilled : filledDocument (cleanUrl consoleUrl) themeUpdate = .ok (some filled)) :
    consoleYaml.fromStr (consoleYaml.toString filled) = .ok filled := by
  have hsame : filledDocument (cleanUrl consoleUrl) themeUpdate = .ok (some themeFilled) := by
    decide +kernel
  cases hsame.symm.trans hfilled
  decide +kernel

theorem partial_theme : fromYamlPartial consoleYaml themeText = .ok themeDraft := by
  rw [fromYamlPartial, fromYamlMerged_eq (parseYamlValue_ok consoleYaml_theme) consoleYaml_stub]
  rfl

theorem management_url_filled_theme : FillsUrl consoleYaml themeText consoleUrl themeDraft :=
  (management_url_filled_iff consoleYaml_stub consoleYaml_wellFormed consoleYaml_printed
    (parseYamlValue_ok consoleYaml_theme) partial_theme).mpr
      (.inr (.inl ⟨by decide, by decide⟩))

/-- The second spelling with a blank URL: the document that is printed gives both. -/
theorem blank_second_spelling :
    (∃ draft, fromYamlPartial consoleYaml blankText = .ok draft ∧
      ¬ FillsUrl consoleYaml blankText consoleUrl draft) := by
  have hparse : consoleYaml.fromStr blankText = .ok blankUpdate := by decide +kernel
  have hensure : ensureDashboardMgmtUrl consoleYaml blankText consoleUrl =
      .ok blankFilledText := by
    rw [ensureDashboardMgmtUrl, parseYamlValue_ok hparse]
    decide +kernel
  have hprinted : consoleYaml.fromStr blankFilledText = .ok blankFilled := by decide +kernel
  refine ⟨draftWith { emptyDashboard with mgmtUrl := some [] }, ?_, ?_⟩
  · rw [fromYamlPartial, fromYamlMerged_eq (parseYamlValue_ok hparse) consoleYaml_stub]
    rfl
  · rintro ⟨out, hout, hread⟩
    cases hensure.symm.trans hout
    rw [fromYamlPartial, fromYamlMerged_eq (parseYamlValue_ok hprinted) consoleYaml_stub] at hread
    cases hread

end Console

end PertiskKos.Config
