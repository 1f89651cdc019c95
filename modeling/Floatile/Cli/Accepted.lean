import Floatile.Cli.Package

/-! The archives that are accepted as packages: what the checks say of the entries, and which
part of them the budget has to do with. -/
namespace Floatile.Cli

open Floatile.Core
open Floatile.Lib
open Floatile.Lib.Checked (reject)
open Floatile.Store
open Floatile.UiSchema (validateDocument)

/-- The entries of an archive that can be opened. -/
def openedEntries (archive : ZipArchive) : List ZipEntry := archive.filterMap Except.toOption

section Accepted

variable (plib : PackageLib) (limits : PackageLimits) {Version : Type} (lib : InstallLib Version)

/-- What the checks of a package find under the paths of its manifest. -/
structure Content (archive : ZipArchive) (manifest : Manifest) : Prop where
  ui : ∃ bytes, readEntry archive manifest.entrypoints.ui.text = .ok bytes ∧
    ∃ document, plib.parseDocument bytes = .ok document ∧
      validateDocument plib.irBytes document = .ok ()
  logic : ∃ bytes, readEntry archive manifest.entrypoints.logic.text = .ok bytes ∧
    validateWasm plib bytes = .ok ()
  config : checkConfig plib archive manifest = .ok ()

/-- The archive behind an accepted package. Only the first four say something of the budget. -/
structure Accepts (bytes : List UInt8) (archive : ZipArchive) (package : ValidatedPackage lib) :
    Prop where
  size : bytes.length ≤ limits.maxArchiveBytes
  opened : plib.openArchive bytes = .ok archive
  count : archive.length ≤ limits.maxEntries
  scanned : ∃ scan, archive.foldlM (scanEntry plib limits) Scan.empty = .ok scan
  manifest : readManifest archive = .ok package.manifestBytes
  content : Content plib archive package.manifest
  files : ∃ files, readFiles archive (openedEntries archive) = .ok files ∧
    package.files = OrdMap.ofList files

variable {plib limits lib} {bytes : List UInt8} {package : ValidatedPackage lib}

theorem entries_of_scan {archive : ZipArchive} {scan : Scan}
    (h : archive.foldlM (scanEntry plib limits) Scan.empty = .ok scan) :
    scan.entries = openedEntries archive :=
  (scanEntries_eq_ok plib limits archive h).1

theorem exists_accepts (h : validatePackage plib limits lib bytes = .ok package) :
    ∃ archive, Accepts plib limits lib bytes archive package := by
  unfold validatePackage at h
  obtain ⟨hsize,h⟩ := Checked.check_bind_eq_ok.mp h
  obtain ⟨archive,hopened,h⟩ := Checked.bind_eq_ok.mp h
  obtain ⟨hcount,h⟩ := Checked.check_bind_eq_ok.mp h
  split at h
  · cases h
  next scan hscan =>
  split at h
  · cases h
  next manifestBytes hmanifest =>
  split at h
  · cases h
  next manifest hparsed =>
  split at h
  · cases h
  next hvalid =>
  obtain ⟨uiBytes,hui,h⟩ := Checked.bind_eq_ok.mp h
  obtain ⟨wasmBytes,hwasm,h⟩ := Checked.bind_eq_ok.mp h
  obtain ⟨hconfig,h⟩ := Checked.check_bind_eq_ok.mp h
  obtain ⟨document,hdocument,h⟩ := Checked.bind_eq_ok.mp h
  obtain ⟨hir,h⟩ := Checked.check_bind_eq_ok.mp h
  obtain ⟨hcomponent,h⟩ := Checked.check_bind_eq_ok.mp h
  split at h
  · cases h
  next files hfiles =>
  obtain rfl := Except.ok.inj h
  refine ⟨archive,?_,Checked.mapError_eq_ok.mp hopened,?_,⟨scan,hscan⟩,hmanifest,
    ⟨⟨uiBytes,hui,document,Checked.mapError_eq_ok.mp hdocument,Checked.mapError_eq_ok.mp hir⟩,
      ⟨wasmBytes,hwasm,hcomponent⟩,hconfig⟩,⟨files,?_,rfl⟩⟩
  · exact not_lt.mp ((Checked.reject_eq_ok _ _ _).mp hsize)
  · exact not_lt.mp ((Checked.reject_eq_ok _ _ _).mp hcount)
  · rw [← entries_of_scan hscan]
    exact hfiles

theorem Accepts.validated {archive : ZipArchive}
    (h : Accepts plib limits lib bytes archive package) :
    validatePackage plib limits lib bytes = .ok package := by
  obtain ⟨scan,hscan⟩ := h.scanned
  obtain ⟨uiBytes,hui,document,hdocument,hir⟩ := h.content.ui
  obtain ⟨wasmBytes,hwasm,hcomponent⟩ := h.content.logic
  obtain ⟨files,hfiles,hpackage⟩ := h.files
  rw [← entries_of_scan hscan] at hfiles
  have hsize : ¬limits.maxArchiveBytes < bytes.length := not_lt.mpr h.size
  have hcount : ¬limits.maxEntries < archive.length := not_lt.mpr h.count
  unfold validatePackage
  simp only [reject, hsize, hcount, if_false, h.opened, Checked.mapError_ok, Checked.ok_bind]
  split
  · next hscan' => rw [hscan] at hscan'; cases hscan'
  next scan' hscan' =>
  obtain rfl := Except.ok.inj (hscan.symm.trans hscan')
  split
  · next hmanifest => rw [h.manifest] at hmanifest; cases hmanifest
  next manifestBytes hmanifest =>
  obtain rfl := Except.ok.inj (h.manifest.symm.trans hmanifest)
  split
  · next hparsed => rw [package.parsed] at hparsed; cases hparsed
  next manifest hparsed =>
  obtain rfl := Except.ok.inj (package.parsed.symm.trans hparsed)
  split
  · next hvalid => rw [package.valid] at hvalid; cases hvalid
  next hvalid =>
  simp only [hui, hwasm, h.content.config, hdocument, hir, hcomponent, Checked.mapError_ok,
    Checked.ok_bind]
  split
  · next hfiles' => rw [hfiles] at hfiles'; cases hfiles'
  next files' hfiles' =>
  obtain rfl := Except.ok.inj (hfiles.symm.trans hfiles')
  obtain ⟨manifest,packageFiles,manifestBytes,_,_,_⟩ := package
  obtain rfl : packageFiles = OrdMap.ofList files := hpackage
  rfl

/-- An archive is accepted as a package exactly when the checks of its parts succeed. -/
theorem validatePackage_eq_ok_iff : validatePackage plib limits lib bytes = .ok package ↔
    ∃ archive, Accepts plib limits lib bytes archive package :=
  ⟨exists_accepts,fun ⟨_,h⟩ => h.validated⟩

end Accepted

end Floatile.Cli
