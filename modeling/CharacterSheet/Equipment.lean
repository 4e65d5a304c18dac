import CharacterSheet.Item

/-!
# Equipment and gates

Equipment is what is worn in each of twelve slots.  A gate looks at the armor on the body and at the
shields in both hands.
-/

namespace CharacterSheet

/-- The equipment slots, in the order in which worn items are applied. -/
def slots : List String :=
  ["head", "body", "back", "hand", "boots", "accessory1", "accessory2", "mainhand", "offhand",
    "extra1", "extra2", "extra3"]

theorem nodup_slots : slots.Nodup := by decide

abbrev Equipment := Table (Option Item)

namespace Equipment

def bare : Equipment := .ofNames slots none nodup_slots

def worn? (e : Equipment) (slot : String) : Option Item := e.getD slot none

def wornItems (e : Equipment) : List Item := slots.filterMap e.worn?

/-- The armor on the body, if what is worn there is armor. -/
def armor? (e : Equipment) : Option Item :=
  (e.worn? "body").filter fun item ↦ item.category == some .armor

def shields (e : Equipment) : List Item :=
  (["mainhand", "offhand"].filterMap e.worn?).filter fun item ↦ item.category == some .shield

end Equipment

def Gate.holds (e : Equipment) : Gate → Bool
  | noArmor => e.armor?.isNone
  | lightArmor => e.armor?.any fun a ↦ a.weight == some .light
  | heavyArmor => e.armor?.any fun a ↦ a.weight == some .heavy
  | anyArmor => e.armor?.isSome
  | anyShield => !e.shields.isEmpty
  | lightShield => e.shields.any fun s ↦ s.weight == some .light
  | heavyShield => e.shields.any fun s ↦ s.weight == some .heavy

/-- The gates that some equipment satisfies, in the order of the schema. -/
def Equipment.satisfiedGates (e : Equipment) : List Gate := Gate.all.filter (·.holds e)

end CharacterSheet
