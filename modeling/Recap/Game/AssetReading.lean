import Recap.Game.AssetData

/-! What holds of the reading of every value, because it holds of numbers and strings. -/

namespace Recap.Game

variable {Offset : Type} [Add Offset] [OffsetNumber Offset]

/-- What holds of nothing, of numbers and strings, and of what is read one after the other. -/
structure ReadRules (buffer : AssetBuffer Offset) (holds : {α : Type} → Parse Offset α → Prop) : Prop where
  pure : ∀ {α : Type} (value : α), holds (pure value)
  bind : ∀ {α β : Type} {first : Parse Offset α} {next : α → Parse Offset β}, holds first →
    (∀ value, holds (next value)) → holds (first >>= next)
  readPrimary : ∀ width, holds (buffer.readPrimary width)
  readString : ∀ useSecondary, holds (buffer.readString useSecondary)

namespace ReadRules

variable {buffer : AssetBuffer Offset} {holds : {α : Type} → Parse Offset α → Prop}

theorem readNumbers (rules : ReadRules buffer holds) (widths : List Nat) : holds (buffer.readNumbers widths) := by
  induction widths with
  | nil => exact rules.pure ()
  | cons width rest ih => exact rules.bind (rules.readPrimary width) fun _ => ih

theorem readReference (rules : ReadRules buffer holds) : holds buffer.readReference := by
  refine rules.bind (rules.readPrimary 4) fun offset => ?_
  split
  · exact rules.readString true
  · exact rules.pure ()

theorem readLocalizedAssetString (rules : ReadRules buffer holds) :
    holds buffer.readLocalizedAssetString := by
  refine rules.bind (rules.readPrimary 4) fun offset => ?_
  refine rules.bind (rules.readPrimary 4) fun assetString => ?_
  split
  · refine rules.bind (rules.readString true) fun _ => ?_
    -- The second string is only there if its own offset is not zero.
    split
    · exact rules.readString true
    · exact rules.pure ()
  · exact rules.pure ()

theorem readValue (rules : ReadRules buffer holds) (type : DataType) : holds (buffer.readValue type) := by
  cases type with
  | key | cKeyAsset | asset | charPtr => exact rules.readReference
  | localizedAssetString => exact rules.readLocalizedAssetString
  | char => exact rules.readString false
  | int16 | array | nullable | struct => exact rules.pure ()
  | bool | uint8 | int | float | enum | uint32 | uint16 | uint64 | int64 | guid | vector2 | vector3
  | quaternion => exact rules.readNumbers _

end ReadRules

end Recap.Game
