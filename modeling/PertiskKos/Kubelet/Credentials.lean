import PertiskKos.Library.Runs
import PertiskKos.Library.Strings

/-!
# Credentials of kubelet

Which files exist is what a start of kubelet goes by: a kubeconfig at its place counts as
credentials of a control plane, whatever it holds.  So the token that one start copies there
is taken for a certificate by the next.
-/

namespace PertiskKos.Kubelet.Credentials

open Strings Runs

inductive Error where
  | msg (message : Text)
  deriving DecidableEq

structure KubeletPaths where
  caFile : Text
  currentPem : Text
  clientCrt : Text
  clientKey : Text

structure Cluster where
  endpoint : Text
  token : Option Text
  ca : Option Text

structure MachineConfig where
  isCp : Bool
  cluster : Cluster

/-- The files that a start reads and writes, and those of kubelet's own PKI that exist. -/
structure Files where
  /-- `/etc/kubernetes/kubelet.conf` -/
  liveCp : Option Text
  /-- `/etc/kubernetes/pki/ca.crt` -/
  liveCa : Option Text
  kubeconfig : Option Text
  bootstrapKubeconfig : Option Text
  caFile : Option Text
  /-- `rotateCertificates` of the kubelet configuration. -/
  rotate : Option Bool
  currentPem : Bool
  clientCrt : Bool
  clientKey : Bool

/-! ## A start -/

section Start

variable (paths : KubeletPaths)

def withNewline (text : Text) : Text := if endsWith text ['\n'] then text else text ++ ['\n']

def ensureClientCa (cluster : Cluster) (files : Files) : Files :=
  match files.caFile, files.liveCa, cluster.ca with
  | some _, _, _ => files
  | none, some ca, _ => { files with caFile := some ca }
  | none, none, some ca => { files with caFile := some (withNewline ca) }
  | none, none, none => files

def tokenBody (cluster : Cluster) (hasCa : Bool) (token : Text) : Text :=
  unlines (["apiVersion: v1".toList, "kind: Config".toList, "clusters:".toList,
    "- cluster:".toList] ++
    (if hasCa then ["    certificate-authority: ".toList ++ paths.caFile,
        "    insecure-skip-tls-verify: false".toList]
      else ["    insecure-skip-tls-verify: true".toList]) ++
    ["    server: ".toList ++ cluster.endpoint, "  name: pertisk".toList, "users:".toList,
      "- name: kubelet-bootstrap".toList, "  user:".toList,
      "    token: \"".toList ++ token ++ ['"'], "contexts:".toList, "- context:".toList,
      "    cluster: pertisk".toList, "    user: kubelet-bootstrap".toList,
      "  name: pertisk".toList, "current-context: pertisk".toList])

def writeBootstrapKubeconfig (cluster : Cluster) (files : Files) : Files × Except Error Unit :=
  let files := match cluster.ca with
    | some ca => { files with caFile := some (withNewline ca) }
    | none => files
  match cluster.token with
  | none => (files, .error (.msg "cluster.token is required to start kubelet".toList))
  | some token =>
      ({ files with
          bootstrapKubeconfig := some (tokenBody paths cluster files.caFile.isSome token) },
        .ok ())

def kubeconfigHasClientCert (raw : Text) : Bool :=
  let hasCert := contains "client-certificate-data:".toList raw ||
    contains "client-certificate:".toList raw
  hasCert && !(contains "name: kubelet-bootstrap".toList raw && contains "token:".toList raw)

def issuedBody (cluster : Cluster) (hasCa : Bool) (cert key : Text) : Text :=
  unlines (["apiVersion: v1".toList, "kind: Config".toList, "clusters:".toList,
    "- cluster:".toList] ++
    (if hasCa then ["    certificate-authority: ".toList ++ paths.caFile] else []) ++
    ["    server: ".toList ++ trim cluster.endpoint, "  name: default-cluster".toList,
      "users:".toList, "- name: default-auth".toList, "  user:".toList,
      "    client-certificate: ".toList ++ cert, "    client-key: ".toList ++ key,
      "contexts:".toList, "- context:".toList, "    cluster: default-cluster".toList,
      "    user: default-auth".toList, "  name: default-auth".toList,
      "current-context: default-auth".toList])

/-- The certificate and the key that kubelet has left behind. -/
def issuedPair (files : Files) : Option (Text × Text) :=
  if files.currentPem ∧ files.clientKey then some (paths.currentPem, paths.clientKey)
  else if files.currentPem then some (paths.currentPem, paths.currentPem)
  else if files.clientCrt ∧ files.clientKey then some (paths.clientCrt, paths.clientKey)
  else none

def recoverIssuedKubeconfigFromPki (cluster : Cluster) (files : Files) : Option Files :=
  match issuedPair paths files with
  | none => none
  | some (cert, key) =>
      if trim cluster.endpoint = [] then none
      else some { files with
        kubeconfig := some (issuedBody paths cluster files.caFile.isSome cert key) }

/-- `none` if there is nothing to keep and nothing to recover from. -/
def keepOrRecoverIssuedKubeconfig (cluster : Cluster) (files : Files) : Option Files :=
  if files.kubeconfig.any kubeconfigHasClientCert then some files
  else recoverIssuedKubeconfigFromPki paths cluster files

def haveCpCreds (cfg : MachineConfig) (files : Files) : Bool :=
  files.liveCp.isSome || (cfg.isCp && files.kubeconfig.isSome)

/-- The files of every start: the certificate of the authority and the configuration. -/
def configured (cfg : MachineConfig) (tlsBootstrap : Bool) (files : Files) : Files :=
  { ensureClientCa cfg.cluster files with rotate := some tlsBootstrap }

/-- A control plane with credentials needs no token. -/
def useCpCreds (files : Files) : Files :=
  match files.liveCp with
  | some live => { files with kubeconfig := some live, bootstrapKubeconfig := none }
  | none => { files with bootstrapKubeconfig := none }

def useToken (cfg : MachineConfig) (files : Files) : Files × Except Error Unit :=
  match writeBootstrapKubeconfig paths cfg.cluster files with
  | (files, .error err) => (files, .error err)
  | (files, .ok ()) =>
      if !cfg.isCp then
        match keepOrRecoverIssuedKubeconfig paths cfg.cluster files with
        | some files => (files, .ok ())
        | none => ({ files with kubeconfig := none }, .ok ())
      else if files.kubeconfig.isSome then (files, .ok ())
      else ({ files with kubeconfig := files.bootstrapKubeconfig }, .ok ())

def prepareKubelet (cfg : MachineConfig) (files : Files) : Files × Except Error Unit :=
  let haveCpCreds := haveCpCreds cfg files
  let tlsBootstrap := !cfg.isCp || !haveCpCreds
  let files := configured cfg tlsBootstrap files
  if cfg.isCp && haveCpCreds then (useCpCreds files, .ok ())
  else useToken paths cfg files

end Start

/-! ## What a start must keep -/

/-- The kubeconfig names a client certificate. -/
def HoldsCert (raw : Text) : Prop :=
  "client-certificate-data:".toList <:+: raw ∨ "client-certificate:".toList <:+: raw

/-- A certificate is not lost in a start, and what a successful start leaves for kubelet is a
certificate, or the token with which it can get one. -/
structure Kept (before after : Files) (result : Except Error Unit) : Prop where
  issued : ∀ raw, before.kubeconfig = some raw → HoldsCert raw →
    ∃ raw', after.kubeconfig = some raw' ∧ HoldsCert raw'
  bootstrap : result = .ok () → ∀ raw, after.kubeconfig = some raw → ¬ HoldsCert raw →
    after.rotate = some true ∧ after.bootstrapKubeconfig.isSome = true

/-- What stands for credentials holds a certificate: in a control plane the live kubeconfig or
else the one at its place, and in a worker a kubeconfig with a certificate is one that the
code recognises, or there is another to replace it, or the start fails before it is looked
at. -/
def Recognised (paths : KubeletPaths) (cfg : MachineConfig) (files : Files) : Prop :=
  if cfg.isCp then
    match files.liveCp, files.kubeconfig with
    | some live, _ => HoldsCert live
    | none, some raw => HoldsCert raw
    | none, none => True
  else ∀ raw, files.kubeconfig = some raw → HoldsCert raw →
    kubeconfigHasClientCert raw = true ∨ cfg.cluster.token = none ∨
      (issuedPair paths files).isSome = true ∧ trim cfg.cluster.endpoint ≠ []

section Frame

variable (paths : KubeletPaths) (cluster : Cluster) (files : Files)

@[simp]
theorem configured_kubeconfig (cfg : MachineConfig) (tlsBootstrap : Bool) :
    (configured cfg tlsBootstrap files).kubeconfig = files.kubeconfig := by
  rw [configured, ensureClientCa]
  split <;> rfl

@[simp]
theorem configured_liveCp (cfg : MachineConfig) (tlsBootstrap : Bool) :
    (configured cfg tlsBootstrap files).liveCp = files.liveCp := by
  rw [configured, ensureClientCa]
  split <;> rfl

@[simp]
theorem configured_rotate (cfg : MachineConfig) (tlsBootstrap : Bool) :
    (configured cfg tlsBootstrap files).rotate = some tlsBootstrap := rfl

@[simp]
theorem issuedPair_configured (cfg : MachineConfig) (tlsBootstrap : Bool) :
    issuedPair paths (configured cfg tlsBootstrap files) = issuedPair paths files := by
  rw [configured, ensureClientCa]
  split <;> rfl

/-- Without a token nothing but the certificate of the authority is written. -/
theorem writeBootstrapKubeconfig_none (htoken : cluster.token = none) :
    ∃ ca, writeBootstrapKubeconfig paths cluster files =
      ({ files with caFile := ca },
        .error (.msg "cluster.token is required to start kubelet".toList)) := by
  rw [writeBootstrapKubeconfig, htoken]
  cases cluster.ca with
  | none => exact ⟨files.caFile, rfl⟩
  | some ca => exact ⟨some (withNewline ca), rfl⟩

theorem writeBootstrapKubeconfig_some {token : Text} (htoken : cluster.token = some token) :
    ∃ ca body, writeBootstrapKubeconfig paths cluster files =
      ({ files with caFile := ca, bootstrapKubeconfig := some body }, .ok ()) := by
  rw [writeBootstrapKubeconfig, htoken]
  cases cluster.ca with
  | none => exact ⟨files.caFile, _, rfl⟩
  | some ca => exact ⟨some (withNewline ca), _, rfl⟩

end Frame

section Kept

variable {paths : KubeletPaths} {cfg : MachineConfig} {files : Files}

theorem holdsCert_issuedBody (cluster : Cluster) (hasCa : Bool) (cert key : Text) :
    HoldsCert (issuedBody paths cluster hasCa cert key) := by
  have hnamed : "client-certificate:".toList <:+: "    client-certificate: ".toList ++ cert :=
    ⟨"    ".toList, ' ' :: cert, rfl⟩
  refine .inr (hnamed.trans (line_infix_unlines ?_))
  cases hasCa <;> simp

/-- What is recovered names a certificate. -/
theorem recover_eq (cluster : Cluster) :
    (∃ body, HoldsCert body ∧ (issuedPair paths files).isSome = true ∧ trim cluster.endpoint ≠ [] ∧
      recoverIssuedKubeconfigFromPki paths cluster files =
        some { files with kubeconfig := some body }) ∨
    (¬ ((issuedPair paths files).isSome = true ∧ trim cluster.endpoint ≠ []) ∧
      recoverIssuedKubeconfigFromPki paths cluster files = none) := by
  rw [recoverIssuedKubeconfigFromPki]
  cases issuedPair paths files with
  | none => exact .inr ⟨by simp, rfl⟩
  | some pair =>
      by_cases hendpoint : trim cluster.endpoint = []
      · exact .inr ⟨by simp [hendpoint], if_pos hendpoint⟩
      · exact .inl ⟨_, holdsCert_issuedBody cluster _ _ _, rfl, hendpoint, if_neg hendpoint⟩

/-- A control plane that is taken to have credentials. -/
theorem prepare_creds (hcp : cfg.isCp = true) {raw : Text}
    (hraw : files.liveCp.or files.kubeconfig = some raw) :
    (prepareKubelet paths cfg files).2 = .ok () ∧
      (prepareKubelet paths cfg files).1.kubeconfig = some raw ∧
      (prepareKubelet paths cfg files).1.rotate = some false := by
  have hcreds : haveCpCreds cfg files = true := by
    rw [haveCpCreds, hcp, Bool.true_and, ← Option.isSome_or, hraw]
    rfl
  have hprepare : prepareKubelet paths cfg files =
      (useCpCreds (configured cfg false files), .ok ()) := by
    simp only [prepareKubelet, hcp, hcreds, Bool.not_true, Bool.or_self, Bool.and_self, if_true]
  rw [hprepare, useCpCreds, configured_liveCp]
  refine ⟨rfl, ?_⟩
  cases hlive : files.liveCp with
  | some live =>
      rw [hlive, Option.some_or] at hraw
      exact ⟨hraw, rfl⟩
  | none =>
      rw [hlive, Option.none_or] at hraw
      exact ⟨(configured_kubeconfig files cfg false).trans hraw, rfl⟩

/-- Every other start has rotation on and goes by the token. -/
theorem prepare_token (hcreds : cfg.isCp = true → files.liveCp = none ∧ files.kubeconfig = none) :
    prepareKubelet paths cfg files = useToken paths cfg (configured cfg true files) := by
  cases hcp : cfg.isCp with
  | true =>
      obtain ⟨hlive, hnone⟩ := hcreds hcp
      have hcreds : haveCpCreds cfg files = false := by
        rw [haveCpCreds, hlive, hnone]
        simp
      simp only [prepareKubelet, hcreds, Bool.not_false, Bool.or_true, Bool.and_false]
      rfl
  | false =>
      simp only [prepareKubelet, hcp, Bool.not_false, Bool.true_or, Bool.false_and]
      rfl

/-- A control plane without any starts with the token, or does not start. -/
theorem useToken_first (hcp : cfg.isCp = true) (hnone : files.kubeconfig = none)
    (hok : (useToken paths cfg files).2 = .ok ()) :
    (useToken paths cfg files).1.rotate = files.rotate ∧
      (useToken paths cfg files).1.bootstrapKubeconfig.isSome = true := by
  cases htoken : cfg.cluster.token with
  | none =>
      obtain ⟨ca, hwrite⟩ := writeBootstrapKubeconfig_none paths cfg.cluster files htoken
      rw [useToken, hwrite] at hok
      cases hok
  | some token =>
      obtain ⟨ca, body, hwrite⟩ := writeBootstrapKubeconfig_some paths cfg.cluster files htoken
      simp [useToken, hwrite, hcp, hnone]

/-- A worker without a token keeps its kubeconfig and does not start. -/
theorem useToken_worker_none (htoken : cfg.cluster.token = none) :
    (useToken paths cfg files).2 ≠ .ok () ∧
      (useToken paths cfg files).1.kubeconfig = files.kubeconfig := by
  obtain ⟨ca, hwrite⟩ := writeBootstrapKubeconfig_none paths cfg.cluster files htoken
  rw [useToken, hwrite]
  refine ⟨?_, rfl⟩
  intro h
  cases h

/-- A worker with one has the token at hand.  Its kubeconfig is kept if it is recognised, or
recovered, or removed. -/
theorem useToken_worker_some (hworker : cfg.isCp = false) {token : Text}
    (htoken : cfg.cluster.token = some token) :
    (useToken paths cfg files).1.rotate = files.rotate ∧
      (useToken paths cfg files).1.bootstrapKubeconfig.isSome = true ∧
      (files.kubeconfig.any kubeconfigHasClientCert = true →
        (useToken paths cfg files).1.kubeconfig = files.kubeconfig) ∧
      (files.kubeconfig.any kubeconfigHasClientCert = false →
        (issuedPair paths files).isSome = true ∧ trim cfg.cluster.endpoint ≠ [] →
          ∃ body, HoldsCert body ∧ (useToken paths cfg files).1.kubeconfig = some body) ∧
      (files.kubeconfig.any kubeconfigHasClientCert = false →
        ¬ ((issuedPair paths files).isSome = true ∧ trim cfg.cluster.endpoint ≠ []) →
          (useToken paths cfg files).1.kubeconfig = none) := by
  obtain ⟨ca, body, hwrite⟩ := writeBootstrapKubeconfig_some paths cfg.cluster files htoken
  cases hkept : files.kubeconfig.any kubeconfigHasClientCert with
  | true => simp [useToken, hwrite, hworker, keepOrRecoverIssuedKubeconfig, hkept]
  | false =>
      rcases @recover_eq paths
        { files with caFile := ca, bootstrapKubeconfig := some body } cfg.cluster with
        ⟨issued, hissued, hpair, hendpoint, hrecover⟩ | ⟨hnot, hrecover⟩
      · have hboth : (issuedPair paths files).isSome = true ∧ trim cfg.cluster.endpoint ≠ [] :=
          ⟨hpair, hendpoint⟩
        simp [useToken, hwrite, hworker, keepOrRecoverIssuedKubeconfig, hkept, hrecover, hboth,
          hissued]
      · have hneither : ¬ ((issuedPair paths files).isSome = true ∧
            trim cfg.cluster.endpoint ≠ []) := hnot
        simp only [useToken, hwrite, hworker, keepOrRecoverIssuedKubeconfig, hkept, hrecover]
        exact ⟨rfl, rfl, fun h => (Bool.false_ne_true h).elim, fun _ h => absurd h hneither,
          fun _ _ => rfl⟩

/-- A start keeps what it must exactly if what stands for credentials is a certificate. -/
theorem kept_iff (paths : KubeletPaths) (cfg : MachineConfig) (files : Files) :
    Kept files (prepareKubelet paths cfg files).1 (prepareKubelet paths cfg files).2 ↔
      Recognised paths cfg files := by
  cases hcp : cfg.isCp with
  | true =>
      cases hcreds : files.liveCp.or files.kubeconfig with
      | some raw =>
          obtain ⟨hok, hkubeconfig, hrotate⟩ := @prepare_creds paths cfg files hcp raw hcreds
          have hrecognised : Recognised paths cfg files ↔ HoldsCert raw := by
            rw [Recognised, if_pos hcp]
            cases hlive : files.liveCp with
            | some live =>
                rw [hlive, Option.some_or] at hcreds
                rw [Option.some.inj hcreds]
            | none =>
                rw [hlive, Option.none_or] at hcreds
                rw [hcreds]
          rw [hrecognised]
          constructor
          · intro hkept
            by_contra hnot
            have hon := (hkept.bootstrap hok raw hkubeconfig hnot).1
            rw [hrotate] at hon
            cases hon
          · intro hcert
            refine ⟨fun _ _ _ => ⟨raw, hkubeconfig, hcert⟩, fun _ other hother hnot => ?_⟩
            rw [hkubeconfig] at hother
            exact absurd (Option.some.inj hother ▸ hcert) hnot
      | none =>
          obtain ⟨hlive, hnone⟩ := Option.or_eq_none_iff.mp hcreds
          have hrecognised : Recognised paths cfg files := by
            rw [Recognised, if_pos hcp, hlive, hnone]
            trivial
          have hnone' : (configured cfg true files).kubeconfig = none := by
            rw [configured_kubeconfig, hnone]
          rw [prepare_token fun _ => ⟨hlive, hnone⟩]
          refine ⟨fun _ => hrecognised, fun _ => ⟨fun raw hraw => ?_, fun hok _ _ _ => ?_⟩⟩
          · rw [hnone] at hraw
            cases hraw
          · exact useToken_first hcp hnone' hok
  | false =>
      have hrecognised : Recognised paths cfg files ↔ ∀ raw, files.kubeconfig = some raw →
          HoldsCert raw → kubeconfigHasClientCert raw = true ∨ cfg.cluster.token = none ∨
            (issuedPair paths files).isSome = true ∧ trim cfg.cluster.endpoint ≠ [] := by
        rw [Recognised, hcp, if_neg Bool.false_ne_true]
      rw [prepare_token (fun h => absurd (hcp.symm.trans h) Bool.false_ne_true), hrecognised]
      cases htoken : cfg.cluster.token with
      | none =>
          obtain ⟨hfailed, hkept⟩ := @useToken_worker_none paths cfg (configured cfg true files)
            htoken
          rw [configured_kubeconfig] at hkept
          exact ⟨fun _ _ _ _ => .inr (.inl rfl), fun _ =>
            ⟨fun raw hraw hcert => ⟨raw, hkept.trans hraw, hcert⟩, fun hok => absurd hok hfailed⟩⟩
      | some token =>
          obtain ⟨hrotate, hbootstrap, hkeep, hrecover, hremove⟩ :=
            @useToken_worker_some paths cfg (configured cfg true files) hcp token htoken
          rw [configured_kubeconfig] at hkeep hrecover hremove
          rw [issuedPair_configured] at hrecover hremove
          constructor
          · intro hkept raw hraw hcert
            by_contra hnot
            push Not at hnot
            obtain ⟨hunknown, -, hnothing⟩ := hnot
            have hany : files.kubeconfig.any kubeconfigHasClientCert = false := by
              rw [hraw]
              simpa using hunknown
            obtain ⟨raw', hraw', -⟩ := hkept.issued raw hraw hcert
            rw [hremove hany fun h => h.2 (hnothing h.1)] at hraw'
            cases hraw'
          · intro hknown
            refine ⟨fun raw hraw hcert => ?_, fun _ _ _ _ => ⟨hrotate, hbootstrap⟩⟩
            cases hany : files.kubeconfig.any kubeconfigHasClientCert with
            | true => exact ⟨raw, (hkeep hany).trans hraw, hcert⟩
            | false =>
                rcases hknown raw hraw hcert with htrue | hnone | hpair
                · rw [hraw, Option.any_some, htrue] at hany
                  cases hany
                · cases hnone
                · obtain ⟨body, hbody, hkubeconfig⟩ := hrecover hany hpair
                  exact ⟨body, hkubeconfig, hbody⟩

end Kept

/-! ## Sequences of starts -/

/-- What happens to the files: a start, kubelet with a certificate of its own, and what others
do to the live kubeconfig and the PKI. -/
inductive Op where
  | start (cfg : MachineConfig)
  | issued (raw : Text)
  | live (raw : Option Text)
  | pki (currentPem clientCrt clientKey : Bool)

instance (raw : Text) : Decidable (HoldsCert raw) :=
  decidable_of_iff (contains "client-certificate-data:".toList raw = true ∨
    contains "client-certificate:".toList raw = true) (by simp only [contains_iff, HoldsCert])

/-- What kubelet writes names its certificate. -/
def step (paths : KubeletPaths) (files : Files) : Op → Option Files
  | .start cfg => some (prepareKubelet paths cfg files).1
  | .issued raw => if HoldsCert raw then some { files with kubeconfig := some raw } else none
  | .live raw => some { files with liveCp := raw }
  | .pki currentPem clientCrt clientKey =>
      some { files with currentPem := currentPem, clientCrt := clientCrt, clientKey := clientKey }

/-- The promise, for one operation: the others lose no certificate. -/
def KeepsCredentials (paths : KubeletPaths) (files : Files) : Op → Prop
  | .start cfg => Kept files (prepareKubelet paths cfg files).1 (prepareKubelet paths cfg files).2
  | _ => True

def CredentialsRecognised (paths : KubeletPaths) (files : Files) : Op → Prop
  | .start cfg => Recognised paths cfg files
  | _ => True

/-- In a sequence of starts every start keeps the credentials exactly if in every start what
stands for credentials is recognised for what it is. -/
theorem kubelet_credentials_kept_iff (paths : KubeletPaths) (files : Files) (ops : List Op) :
    Guarded (step paths) (KeepsCredentials paths) files ops ↔
      Guarded (step paths) (CredentialsRecognised paths) files ops := by
  apply guarded_iff_guarded (fun _ => True)
  · intro files op _
    cases op with
    | start cfg => exact kept_iff paths cfg files
    | issued raw => exact Iff.rfl
    | live raw => exact Iff.rfl
    | pki currentPem clientCrt clientKey => exact Iff.rfl
  · exact fun _ _ _ _ _ => trivial
  · trivial

section Sample

def samplePaths : KubeletPaths where
  caFile := "/var/lib/kubelet/ca.crt".toList
  currentPem := "/var/lib/kubelet/pki/kubelet-client-current.pem".toList
  clientCrt := "/var/lib/kubelet/pki/kubelet-client.crt".toList
  clientKey := "/var/lib/kubelet/pki/kubelet-client.key".toList

def controlPlane : MachineConfig where
  isCp := true
  cluster := ⟨"https://10.1.1.254:6443".toList, some "abcdef.0123456789abcdef".toList, none⟩

def freshNode : Files := ⟨none, none, none, none, none, none, false, false, false⟩

/-- The second start of a control plane without credentials takes the token for them. -/
theorem second_start_drops_bootstrap :
    ¬ ∀ (paths : KubeletPaths) (files : Files) (ops : List Op),
      Guarded (step paths) (KeepsCredentials paths) files ops := by
  intro hclaim
  have hstarts := hclaim samplePaths freshNode [.start controlPlane, .start controlPlane]
  obtain ⟨-, hsecond, -⟩ := hstarts
  have hleft : ∃ raw, (prepareKubelet samplePaths controlPlane
      (prepareKubelet samplePaths controlPlane freshNode).1).1.kubeconfig = some raw ∧
        ¬ HoldsCert raw := by
    exact ⟨_, rfl, by decide +kernel⟩
  obtain ⟨raw, hraw, hcert⟩ := hleft
  have hrotate := (hsecond.bootstrap rfl raw hraw hcert).1
  cases hrotate

end Sample

end PertiskKos.Kubelet.Credentials
