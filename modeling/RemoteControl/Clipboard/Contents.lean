import Mathlib.Algebra.Ring.Int.Defs
import Mathlib.Algebra.Ring.Nat
import RemoteControl.Utf8

/-! # Contents of the clipboard

`create_multi_clipboards` puts the items of a clipboard into messages, each compressed if
that makes it shorter, and `from_multi_clipboards` takes them out again.

A special item that compression does not shorten is sent with its name in place of its
data. Width and height of an image are sent with 32 bits.
-/

namespace RemoteControl.ClipboardContents

open Utf8

abbrev Bytes := List UInt8

/-- `arboard::ImageData` -/
inductive ImageData where
  | rgba (width height : UInt64) (bytes : Bytes)
  | png (bytes : Bytes)
  | svg (text : List Char)
  deriving DecidableEq

/-- `arboard::ClipboardData` -/
inductive ClipboardData where
  | text (s : List Char)
  | rtf (s : List Char)
  | html (s : List Char)
  | image (a : ImageData)
  | special (name : List Char) (data : Bytes)
  | fileUrl (paths : List (List Char))
  | none
  deriving DecidableEq

inductive ClipboardFormat where
  | text
  | rtf
  | html
  | imageRgba
  | imagePng
  | imageSvg
  | special
  deriving DecidableEq

/-- `EnumOrUnknown<ClipboardFormat>` -/
inductive FormatValue where
  | known (format : ClipboardFormat)
  | unknown (value : Int)
  deriving DecidableEq

/-- The message `Clipboard`. -/
structure Clipboard where
  compress : Bool := false
  content : Bytes := []
  width : Int32 := 0
  height : Int32 := 0
  format : FormatValue := .known .text
  specialName : List Char := []
  deriving DecidableEq

section

variable (compressFunc decompress : Bytes → Bytes)

def plainToProto (s : List Char) (format : ClipboardFormat) : Clipboard :=
  let compressed := compressFunc (encode s)
  let compress : Bool := compressed.length < (encode s).length
  { compress, content := if compress then compressed else encode s, format := .known format }

/-- `as _` from a `usize` of 64 bits to an `i32`. -/
def asI32 (n : UInt64) : Int32 := n.toUInt32.toInt32

/-- `as _` from an `i32` to a `usize` of 64 bits. -/
def asUsize (n : Int32) : UInt64 := n.toInt64.toUInt64

def imageToProto : ImageData → Clipboard
  | .rgba width height bytes =>
      let compressed := compressFunc bytes
      let compress : Bool := compressed.length < bytes.length
      { compress
        content := if compress then compressed else bytes
        width := asI32 width
        height := asI32 height
        format := .known .imageRgba }
  | .png bytes => { compress := false, content := bytes, format := .known .imagePng }
  | .svg text =>
      let compressed := compressFunc (encode text)
      let compress : Bool := compressed.length < (encode text).length
      { compress
        content := if compress then compressed else encode text
        format := .known .imageSvg }

def specialToProto (d : Bytes) (s : List Char) : Clipboard :=
  let compressed := compressFunc d
  let compress : Bool := compressed.length < d.length
  { compress
    content := if compress then compressed else encode s
    format := .known .special
    specialName := s }

def clipboardDataToProto : ClipboardData → Option Clipboard
  | .text s => some (plainToProto compressFunc s .text)
  | .rtf s => some (plainToProto compressFunc s .rtf)
  | .html s => some (plainToProto compressFunc s .html)
  | .image a => some (imageToProto compressFunc a)
  | .special s d => some (specialToProto compressFunc d s)
  | .fileUrl _ => none
  | .none => none

def createMultiClipboards (vecData : List ClipboardData) : List Clipboard :=
  vecData.filterMap (clipboardDataToProto compressFunc)

def fromClipboard (clipboard : Clipboard) : Option ClipboardData :=
  let data := if clipboard.compress then decompress clipboard.content else clipboard.content
  match clipboard.format with
  | .known .text => (fromUtf8 data).map .text
  | .known .rtf => (fromUtf8 data).map .rtf
  | .known .html => (fromUtf8 data).map .html
  | .known .imageRgba =>
      some (.image (.rgba (asUsize clipboard.width) (asUsize clipboard.height) data))
  | .known .imagePng => some (.image (.png data))
  | .known .imageSvg => some (.image (.svg ((fromUtf8 data).getD [])))
  | .known .special => some (.special clipboard.specialName data)
  | .unknown _ => none

def fromMultiClipboards (multiClipboards : List Clipboard) : List ClipboardData :=
  multiClipboards.filterMap (fromClipboard decompress)

end

/-! ## The round trip -/

/-- What `clipboard_data_to_proto` does not leave out. -/
def kept : ClipboardData → Bool
  | .fileUrl _ => false
  | .none => false
  | _ => true

/-- An `i32` has room for the size, or the casts there and back restore it. -/
def SizeFits (n : UInt64) : Prop := n.toNat < 2 ^ 31 ∨ 2 ^ 64 - 2 ^ 31 ≤ n.toNat

instance (n : UInt64) : Decidable (SizeFits n) := inferInstanceAs (Decidable (_ ∨ _))

/-- Which items arrive as they were: special ones if compression makes them shorter or if
    their data are their name, and images whose sizes fit. -/
def Survives (compressFunc : Bytes → Bytes) : ClipboardData → Prop
  | .special name data => (compressFunc data).length < data.length ∨ encode name = data
  | .image (.rgba width height _) => SizeFits width ∧ SizeFits height
  | _ => True

instance (compressFunc : Bytes → Bytes) : DecidablePred (Survives compressFunc)
  | .special _ _ => inferInstanceAs (Decidable (_ ∨ _))
  | .image (.rgba _ _ _) => inferInstanceAs (Decidable (_ ∧ _))
  | .image (.png _) => inferInstanceAs (Decidable True)
  | .image (.svg _) => inferInstanceAs (Decidable True)
  | .text _ => inferInstanceAs (Decidable True)
  | .rtf _ => inferInstanceAs (Decidable True)
  | .html _ => inferInstanceAs (Decidable True)
  | .fileUrl _ => inferInstanceAs (Decidable True)
  | .none => inferInstanceAs (Decidable True)

theorem asUsize_asI32_iff (n : UInt64) : asUsize (asI32 n) = n ↔ SizeFits n := by
  have bits : (n.toBitVec.setWidth 32).signExtend 64 = n.toBitVec ↔ SizeFits n := by
    have small := n.toBitVec.isLt
    rw [← BitVec.toInt_inj, BitVec.toInt_signExtend_of_le (by decide), BitVec.toInt_setWidth,
      BitVec.toInt_eq_toNat_bmod]
    simp only [Int.bmod, SizeFits, ← UInt64.toNat_toBitVec]
    omega
  rw [← bits, ← UInt64.toBitVec_inj]
  rfl

/-- What the other side makes of an item. -/
def received (compressFunc : Bytes → Bytes) : ClipboardData → ClipboardData
  | .special name data =>
      .special name (if (compressFunc data).length < data.length then data else encode name)
  | .image (.rgba width height bytes) =>
      .image (.rgba (asUsize (asI32 width)) (asUsize (asI32 height)) bytes)
  | item => item

section

variable {compressFunc decompress : Bytes → Bytes}

theorem received_eq_iff (item : ClipboardData) :
    received compressFunc item = item ↔ Survives compressFunc item := by
  cases item with
  | special name data =>
      by_cases shorter : (compressFunc data).length < data.length <;>
        simp [received, Survives, shorter]
  | image a =>
      cases a with
      | rgba width height bytes => simp [received, Survives, asUsize_asI32_iff]
      | png bytes => simp [received, Survives]
      | svg text => simp [received, Survives]
  | text s => simp [received, Survives]
  | rtf s => simp [received, Survives]
  | html s => simp [received, Survives]
  | fileUrl paths => simp [received, Survives]
  | none => simp [received, Survives]

section

variable (inverts : ∀ d, decompress (compressFunc d) = d)

include inverts

/-- Whichever of the two is sent, the data come out. -/
theorem content_restored (d : Bytes) :
    (if (compressFunc d).length < d.length then
        decompress (if (compressFunc d).length < d.length then compressFunc d else d)
      else if (compressFunc d).length < d.length then compressFunc d else d) = d := by
  split_ifs
  · exact inverts d
  · rfl

theorem fromClipboard_received (item : ClipboardData) :
    (clipboardDataToProto compressFunc item).bind (fromClipboard decompress) =
      if kept item then some (received compressFunc item) else none := by
  have restored := content_restored inverts
  cases item with
  | text s => simp [clipboardDataToProto, plainToProto, fromClipboard, kept, received, restored]
  | rtf s => simp [clipboardDataToProto, plainToProto, fromClipboard, kept, received, restored]
  | html s => simp [clipboardDataToProto, plainToProto, fromClipboard, kept, received, restored]
  | image a =>
      cases a with
      | rgba width height bytes =>
          simp [clipboardDataToProto, imageToProto, fromClipboard, kept, received, restored]
      | png bytes => simp [clipboardDataToProto, imageToProto, fromClipboard, kept, received]
      | svg text =>
          simp [clipboardDataToProto, imageToProto, fromClipboard, kept, received, restored]
  | special name data =>
      -- here it is the name that takes the place of the data
      by_cases shorter : (compressFunc data).length < data.length <;>
        simp [clipboardDataToProto, specialToProto, fromClipboard, kept, received, shorter, inverts]
  | fileUrl paths => rfl
  | none => rfl

theorem fromMultiClipboards_received (items : List ClipboardData) :
    fromMultiClipboards decompress (createMultiClipboards compressFunc items) =
      (items.filter kept).map (received compressFunc) := by
  rw [fromMultiClipboards, createMultiClipboards, List.filterMap_filterMap]
  simp only [fromClipboard_received inverts]
  induction items with
  | nil => rfl
  | cons item items ih => by_cases keep : kept item = true <;> simp [keep, ih]

end

/-- The items come back in order, all of them as they were if and only if each that is
    sent survives. -/
theorem fromMultiClipboards_createMultiClipboards_iff
    (inverts : ∀ d, decompress (compressFunc d) = d) (items : List ClipboardData) :
    fromMultiClipboards decompress (createMultiClipboards compressFunc items) = items.filter kept ↔
      ∀ item ∈ items, Survives compressFunc item := by
  have survives : (∀ item ∈ items, Survives compressFunc item) ↔
      ∀ item ∈ items.filter kept, received compressFunc item = item := by
    constructor
    · intro all item member
      exact (received_eq_iff item).mpr (all item (List.mem_of_mem_filter member))
    · intro all item member
      by_cases keep : kept item = true
      · exact (received_eq_iff item).mp (all item (List.mem_filter.mpr ⟨member, keep⟩))
      · -- what is left out has nothing to lose
        cases item <;> simp_all [kept, Survives]
  rw [fromMultiClipboards_received inverts, survives]
  constructor
  · intro same item member
    rw [← List.map_id (items.filter kept), List.map_map] at same
    exact List.map_inj_left.mp same item member
  · intro all
    rw [List.map_congr_left all, List.map_id']

end

/-- The header of a compressed frame. -/
def frameHeader : Bytes := [0x28, 0xB5, 0x2F, 0xFD]

theorem fromMultiClipboards_createMultiClipboards_two :
    fromMultiClipboards (List.drop 4)
        (createMultiClipboards (frameHeader ++ ·)
          [.text "a".toList, .fileUrl [], .special "dyn.x".toList (encode "dyn.x".toList),
            .image (.rgba 1 1 [1, 2, 3, 4])]) =
      [.text "a".toList, .special "dyn.x".toList (encode "dyn.x".toList),
        .image (.rgba 1 1 [1, 2, 3, 4])] :=
  (fromMultiClipboards_createMultiClipboards_iff (fun _ => rfl) _).mpr (by decide)

/-- Three bytes that compression makes longer, under a name. -/
theorem special_not_restored :
    ¬ ∀ (compressFunc decompress : Bytes → Bytes) (items : List ClipboardData),
      (∀ d, decompress (compressFunc d) = d) →
        fromMultiClipboards decompress (createMultiClipboards compressFunc items) =
          items.filter kept := by
  intro restored
  have same := restored (frameHeader ++ ·) (List.drop 4)
    [.special "CF_CUSTOM".toList [1, 2, 3]] (fun _ => rfl)
  revert same
  decide

end RemoteControl.ClipboardContents
