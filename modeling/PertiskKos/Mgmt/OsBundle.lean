import Mathlib.Logic.Function.Basic
import PertiskKos.Library.Strings

/-!
# Directories of OS bundles

A bundle is uploaded as an archive or file by file, is checked, and is copied into the
catalog.  Its directory holds the files under their canonical names.
-/

namespace PertiskKos.OsBundle

open Strings

abbrev Bytes := List UInt8

inductive BundleFile where
  | kernel
  | initramfs
  | manifestJson
  | manifestSig
  | osTrustPk
  deriving DecidableEq, Repr

abbrev BundleDir := BundleFile → Option Bytes

def requiredFiles : List BundleFile := [.kernel, .initramfs, .manifestJson, .manifestSig]

def eqIgnoreAsciiCase (left right : Text) : Bool :=
  left.map Char.toLower = right.map Char.toLower

def canonicalBundleName (basename : Text) : Option BundleFile :=
  let b := trim basename
  if eqIgnoreAsciiCase b "kernel".toList || eqIgnoreAsciiCase b "bzImage".toList then
    some .kernel
  else if eqIgnoreAsciiCase b "initramfs".toList ||
      eqIgnoreAsciiCase b "initramfs.cpio.gz".toList || startsWith b "initramfs-".toList then
    some .initramfs
  else if eqIgnoreAsciiCase b "manifest.json".toList then some .manifestJson
  else if eqIgnoreAsciiCase b "manifest.sig".toList then some .manifestSig
  else if eqIgnoreAsciiCase b "os-trust.pk".toList ||
      eqIgnoreAsciiCase b "os-trust.pub".toList then
    some .osTrustPk
  else none

example : canonicalBundleName "initramfs-amd64.cpio.gz".toList = some .initramfs ∧
    canonicalBundleName " OS-Trust.pub".toList = some .osTrustPk ∧
    canonicalBundleName "readme.txt".toList = none := by
  repeat rw [String.toList_ofList]
  decide

/-! ## Checks -/

section Manifest

-- The `version` of the JSON text in a manifest.
variable (parse : Bytes → Option Text)

def bundleVersion (dir : BundleDir) : Option Text := do
  let raw ← dir .manifestJson
  let version ← parse raw
  if trim version = [] then none else some (trim version)

def validateBundleDir (dir : BundleDir) : Option Text :=
  if requiredFiles.all fun file => (dir file).any (· ≠ []) then bundleVersion parse dir
  else none

/-! ## Uploads -/

/-- A member of an archive. -/
structure Entry where
  isFile : Bool
  /-- The last component of its enclosed name, if it stays inside the archive. -/
  base : Option Text
  bytes : Bytes
  /-- The member can be opened. -/
  opened : Bool
  /-- Its contents can be read and written out. -/
  copied : Bool

def extractEntries : List Entry → BundleDir → Option BundleDir
  | [], dest => some dest
  | entry :: entries, dest =>
      if !entry.opened then none
      else if !entry.isFile then extractEntries entries dest
      else
        match entry.base.bind canonicalBundleName with
        | none => extractEntries entries dest
        | some file =>
            if entry.copied then
              extractEntries entries (Function.update dest file (some entry.bytes))
            else none

def extractBundleZip (entries : List Entry) (dest : BundleDir) : Option BundleDir :=
  (extractEntries entries dest).filter fun dir => (validateBundleDir parse dir).isSome

def writeBundleFile (dest : BundleDir) (original : Text) (bytes : Bytes) : Option BundleDir :=
  match canonicalBundleName original with
  | none => none
  | some file => if bytes = [] then none else some (Function.update dest file (some bytes))

/-- A field of the upload form.  A file is named by the last component of its name. -/
inductive Field where
  | archive (entries : List Entry)
  | file (name : Text) (bytes : Bytes)

/-- The files that came alone are in the directory; the last archive is kept for later. -/
def receive : List Field → BundleDir → Option (List Entry) →
    Option (BundleDir × Option (List Entry))
  | [], dest, zip => some (dest, zip)
  | .archive entries :: fields, dest, _ => receive fields dest (some entries)
  | .file name bytes :: fields, dest, zip =>
      if (canonicalBundleName name).isSome then
        (writeBundleFile dest name bytes).bind fun dir => receive fields dir zip
      else receive fields dest zip

def ingest (fields : List Field) : Option BundleDir := do
  let (dest, zip) ← receive fields (fun _ => none) none
  match zip with
  | some entries => extractBundleZip parse entries dest
  | none => if (validateBundleDir parse dest).isSome then some dest else none

/-- The copy holds the five files of the source, and nothing that was there before. -/
def copyBundleDir (src : BundleDir) : Option BundleDir :=
  if (validateBundleDir parse src).isSome then some src else none

end Manifest

/-! ## The trust key -/

def bundleTrustPk (dir : BundleDir) : Option Bytes := (dir .osTrustPk).filter (· ≠ [])

/-- The key of the bundle, or a copy of the first file that is there. -/
def ensureTrustPk (bundle : BundleDir) (fallbacks : List (Option Bytes)) : Option BundleDir :=
  if (bundleTrustPk bundle).isSome then some bundle
  else
    (fallbacks.findSome? id).map fun key => Function.update bundle .osTrustPk (some key)

end PertiskKos.OsBundle
