import RealmDirectory.Payload.Code
/-!
# What kind of realm it is

Three closed enumerations describe a realm to its players: the rules of play (`RealmKind`), the
region it is meant for (`Timezone`) and the account level it demands (`AccessLevel`). Each is
carried as one code byte; the codes leave gaps, and a byte in a gap is refused.
-/

namespace RealmDirectory

open Payload (Coded)

/-- The rules of play of a realm. -/
inductive RealmKind where
  | normal
  | pvp
  | normal2
  | rp
  | rpPvp
  | ffaPvp
  deriving DecidableEq, Repr

instance : Coded RealmKind where
  field := "type"
  all := [.normal, .pvp, .normal2, .rp, .rpPvp, .ffaPvp]
  code
    | .normal => 0
    | .pvp => 1
    | .normal2 => 4
    | .rp => 6
    | .rpPvp => 8
    | .ffaPvp => 16
  name
    | .normal => "Normal"
    | .pvp => "Pvp"
    | .normal2 => "Normal2"
    | .rp => "Rp"
    | .rpPvp => "RpPvp"
    | .ffaPvp => "FfaPvp"
  mem_all a := by cases a <;> decide
  code_inj a b := by cases a <;> cases b <;> decide

/-- The region of a realm, which decides the client locales that see it. -/
inductive Timezone where
  | unknown
  | development
  | unitedStates
  | oceanic
  | latinAmerica
  | tournament5
  | korea
  | tournament7
  | english
  | german
  | french
  | spanish
  | russian
  | tournament13
  | taiwan
  | tournament15
  | china
  | cn1
  | cn2
  | cn3
  | cn4
  | cn5
  | cn6
  | cn7
  | cn8
  | tournament25
  | testServer
  | tournament27
  | qaServer
  | cn9
  deriving DecidableEq, Repr

/-- Every region, in the order of the codes. -/
def Timezone.all : List Timezone :=
  [.unknown, .development, .unitedStates, .oceanic, .latinAmerica, .tournament5, .korea,
    .tournament7, .english, .german, .french, .spanish, .russian, .tournament13, .taiwan,
    .tournament15, .china, .cn1, .cn2, .cn3, .cn4, .cn5, .cn6, .cn7, .cn8, .tournament25,
    .testServer, .tournament27, .qaServer, .cn9]

/-- The name of a region. -/
def Timezone.name : Timezone → String
  | unknown => "Unknown"
  | development => "Development"
  | unitedStates => "UnitedStates"
  | oceanic => "Oceanic"
  | latinAmerica => "LatinAmerica"
  | tournament5 => "Tournament5"
  | korea => "Korea"
  | tournament7 => "Tournament7"
  | english => "English"
  | german => "German"
  | french => "French"
  | spanish => "Spanish"
  | russian => "Russian"
  | tournament13 => "Tournament13"
  | taiwan => "Taiwan"
  | tournament15 => "Tournament15"
  | china => "China"
  | cn1 => "Cn1"
  | cn2 => "Cn2"
  | cn3 => "Cn3"
  | cn4 => "Cn4"
  | cn5 => "Cn5"
  | cn6 => "Cn6"
  | cn7 => "Cn7"
  | cn8 => "Cn8"
  | tournament25 => "Tournament25"
  | testServer => "TestServer"
  | tournament27 => "Tournament27"
  | qaServer => "QaServer"
  | cn9 => "Cn9"

/-- The code of a region is its place in `Timezone.all`. -/
def Timezone.code (zone : Timezone) : UInt8 := UInt8.ofNat zone.ctorIdx

theorem Timezone.ctorIdx_lt (zone : Timezone) : zone.ctorIdx < 30 := by
  cases zone <;> decide

theorem Timezone.ctorIdx_inj {a b : Timezone} (h : a.ctorIdx = b.ctorIdx) : a = b := by
  have get (zone : Timezone) : Timezone.all[zone.ctorIdx]? = some zone := by cases zone <;> rfl
  have := get a
  rw [h, get b] at this
  exact (Option.some.inj this).symm

instance : Coded Timezone where
  field := "timezone"
  all := Timezone.all
  code := Timezone.code
  name := Timezone.name
  mem_all a := by cases a <;> decide
  code_inj a b h := by
    have ha := a.ctorIdx_lt
    have hb := b.ctorIdx_lt
    have := congrArg UInt8.toNat h
    simp only [Timezone.code, UInt8.toNat_ofNat'] at this
    exact Timezone.ctorIdx_inj (by omega)

/-- The security level of an account, and the least one a realm lets in. -/
inductive AccessLevel where
  | player
  | moderator
  | gameMaster
  | administrator
  | console
  deriving DecidableEq, Repr

instance : Coded AccessLevel where
  field := "min_access_level"
  all := [.player, .moderator, .gameMaster, .administrator, .console]
  code
    | .player => 0
    | .moderator => 1
    | .gameMaster => 2
    | .administrator => 3
    | .console => 4
  name
    | .player => "Player"
    | .moderator => "Moderator"
    | .gameMaster => "GameMaster"
    | .administrator => "Administrator"
    | .console => "Console"
  mem_all a := by cases a <;> decide
  code_inj a b := by cases a <;> cases b <;> decide

/-- Levels are ordered by their codes. -/
instance : LT AccessLevel where
  lt a b := Coded.code a < Coded.code b

instance (a b : AccessLevel) : Decidable (a < b) :=
  inferInstanceAs (Decidable (Coded.code a < Coded.code b))

end RealmDirectory
