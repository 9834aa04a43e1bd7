import PertiskKos.Library.Lines
import PertiskKos.Tpm.Base64

/-!
# Kubeconfigs

A kubeconfig is rendered from a template and afterwards edited line by line: the host of its
server is looked for on the first line that has one, and the names of the cluster and of the
context are replaced where the lines look as the template writes them.
-/

namespace PertiskKos.Bootstrap

open Strings Lines

/-- Standard base64 of a text. -/
def base64Text (text : Text) : Text :=
  (Tpm.Ek.base64Encode (Utf8.encode text)).map fun byte => Char.ofNat byte.toNat

def sanitizeContextName (name : Text) : Text :=
  if trim name = [] then "pertisk".toList
  else (trim name).map fun c =>
    if c.isAlphanum ∨ c = '-' ∨ c = '_' ∨ c = '.' then c else '-'

def kubeconfigLines (server caCrt clientCrt clientKey user clusterName : Text) : List Text :=
  ["apiVersion: v1".toList, "kind: Config".toList, "clusters:".toList, "- cluster:".toList,
    "    certificate-authority-data: ".toList ++ base64Text caCrt,
    "    server: ".toList ++ server,
    "  name: ".toList ++ sanitizeContextName clusterName, "users:".toList,
    "- name: ".toList ++ user, "  user:".toList,
    "    client-certificate-data: ".toList ++ base64Text clientCrt,
    "    client-key-data: ".toList ++ base64Text clientKey, "contexts:".toList,
    "- context:".toList, "    cluster: ".toList ++ sanitizeContextName clusterName,
    "    user: ".toList ++ user, "  name: ".toList ++ sanitizeContextName clusterName,
    "current-context: ".toList ++ sanitizeContextName clusterName]

def renderKubeconfig (server caCrt clientCrt clientKey user clusterName : Text) : Text :=
  unlines (kubeconfigLines server caCrt clientCrt clientKey user clusterName)

def stripScheme (url : Text) : Text :=
  trimStartMatches "http://".toList (trimStartMatches "https://".toList url)

/-- The host on one line, where the line has a server. -/
def serverHostOfLine (line : Text) : Option Text :=
  match "server:".toList.isPrefixOf? (trimStart line) with
  | none => none
  | some rest =>
      match stripScheme (trim rest) with
      | '[' :: rest => some (rest.takeWhile (· ≠ ']'))
      | hostport =>
          let host := trim (hostport.takeWhile (· ≠ ':'))
          if host ≠ [] then some host else none

/-- Host from a kubeconfig `server:` line (`https://10.0.0.1:6443` → `10.0.0.1`). -/
def kubeconfigServerHost (kc : Text) : Option Text := (lines kc).findSome? serverHostOfLine

example : kubeconfigServerHost (renderKubeconfig "https://10.0.0.1:6443".toList [] [] []
    "kubernetes-admin".toList []) = some "10.0.0.1".toList := by decide +kernel

section Lines

theorem base64Digit_ge (value : Nat) : 43 ≤ (Tpm.Ek.base64Digit value).toNat := by
  simp only [Tpm.Ek.base64Digit]
  split
  · rw [Utf8.toNat_ofNat (by omega)]
    omega
  · split
    · rw [Utf8.toNat_ofNat (by omega)]
      omega
    · split
      · rw [Utf8.toNat_ofNat (by omega)]
        omega
      · split <;> decide

theorem base64Encode_ge (bytes : List UInt8) :
    ∀ byte ∈ Tpm.Ek.base64Encode bytes, 43 ≤ byte.toNat := by
  have hpadding : 43 ≤ Tpm.Ek.padding.toNat := by decide
  fun_induction Tpm.Ek.base64Encode bytes with
  | case1 a b c rest n ih =>
      simp only [List.forall_mem_cons]
      exact ⟨base64Digit_ge _, base64Digit_ge _, base64Digit_ge _, base64Digit_ge _, ih⟩
  | case2 a b n =>
      simp only [List.forall_mem_cons]
      exact ⟨base64Digit_ge _, base64Digit_ge _, base64Digit_ge _, hpadding, List.forall_mem_nil _⟩
  | case3 a n =>
      simp only [List.forall_mem_cons]
      exact ⟨base64Digit_ge _, base64Digit_ge _, hpadding, hpadding, List.forall_mem_nil _⟩
  | case4 => exact List.forall_mem_nil _

/-- Encoded data has no line ends. -/
theorem base64Text_ge (text : Text) : ∀ c ∈ base64Text text, 43 ≤ c.toNat := by
  intro c hc
  obtain ⟨byte, hbyte, rfl⟩ := List.mem_map.mp hc
  have hge := base64Encode_ge _ byte hbyte
  have hlt := byte.toNat_lt
  rw [Char.toNat_ofNat, if_pos (by left; omega)]
  exact hge

theorem sanitizeContextName_chars (name : Text) :
    ∀ c ∈ sanitizeContextName name, c.isAlphanum = true ∨ c = '-' ∨ c = '_' ∨ c = '.' := by
  intro c hc
  rw [sanitizeContextName] at hc
  split at hc
  · have hall : ∀ d ∈ "pertisk".toList, d.isAlphanum = true := by decide
    exact .inl (hall c hc)
  · obtain ⟨d, -, rfl⟩ := List.mem_map.mp hc
    split
    · next h => exact h
    · exact .inr (.inl rfl)

theorem sanitizeContextName_ne_nil (name : Text) : sanitizeContextName name ≠ [] := by
  rw [sanitizeContextName]
  split
  · decide
  · next h => simpa using h

end Lines

/-! ## Renaming -/

/-- The flags of the loop over the lines. -/
structure RenameState where
  inClusters : Bool
  inContexts : Bool
  sawClusterEntryName : Bool
  sawContextEntryName : Bool
  deriving DecidableEq, Repr

def indentOf (line : Text) : Nat :=
  (Utf8.encode line).length - (Utf8.encode (trimStart line)).length

/-- One line: the flags after it, and what is written for it. -/
def renameLine (name : Text) (state : RenameState) (line : Text) : RenameState × Text :=
  let trimmed := trimStart line
  if startsWith trimmed "clusters:".toList then
    ({ state with inClusters := true, inContexts := false, sawClusterEntryName := false }, line)
  else if startsWith trimmed "users:".toList then
    ({ state with inClusters := false, inContexts := false }, line)
  else if startsWith trimmed "contexts:".toList then
    ({ state with inClusters := false, inContexts := true, sawContextEntryName := false }, line)
  else if startsWith trimmed "current-context:".toList then
    (state, "current-context: ".toList ++ name)
  else if state.inClusters && !state.sawClusterEntryName && startsWith trimmed "name:".toList then
    -- top-level cluster entry name (not nested under cluster:)
    if indentOf line = 2 then
      ({ state with sawClusterEntryName := true }, "  name: ".toList ++ name)
    else (state, line)
  else if state.inContexts then
    if startsWith trimmed "cluster:".toList then
      (state, List.replicate (indentOf line) ' ' ++ "cluster: ".toList ++ name)
    else if !state.sawContextEntryName && startsWith trimmed "name:".toList &&
        indentOf line = 2 then
      ({ state with sawContextEntryName := true }, "  name: ".toList ++ name)
    else (state, line)
  else (state, line)

def renameLines (name : Text) : RenameState → List Text → List Text
  | _, [] => []
  | state, line :: rest =>
      (renameLine name state line).2 :: renameLines name (renameLine name state line).1 rest

/-- Rewrite kubeconfig cluster/context names to `cluster_name` (for mgmt download). -/
def renameKubeconfigContext (kc clusterName : Text) : Text :=
  unlines (renameLines (sanitizeContextName clusterName) ⟨false, false, false, false⟩ (lines kc))

end PertiskKos.Bootstrap
