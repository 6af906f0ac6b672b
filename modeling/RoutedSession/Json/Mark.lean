import RoutedSession.Bytes

namespace RoutedSession.Json.Mark

/-- Opens and closes a text. -/
def quote : UInt8 := 0x22

/-- Begins an escape in a text. -/
def backslash : UInt8 := 0x5c

/-- Stands between items and between members. -/
def comma : UInt8 := 0x2c

/-- Stands between a name and its value. -/
def colon : UInt8 := 0x3a

def openArray : UInt8 := 0x5b

def closeArray : UInt8 := 0x5d

def openObject : UInt8 := 0x7b

def closeObject : UInt8 := 0x7d

/-- The sign of a negative number or exponent. -/
def minus : UInt8 := 0x2d

/-- The sign that an exponent may have. -/
def plus : UInt8 := 0x2b

/-- Stands before the places of a number. -/
def point : UInt8 := 0x2e

def zero : UInt8 := 0x30

def nine : UInt8 := 0x39

/-- The letter that begins an exponent. -/
def smallE : UInt8 := 0x65

/-- The other letter that begins an exponent. -/
def capitalE : UInt8 := 0x45

/-- The letter that begins `null`. -/
def smallN : UInt8 := 0x6e

/-- The letter that begins `true`. -/
def smallT : UInt8 := 0x74

/-- The letter that begins `false`. -/
def smallF : UInt8 := 0x66

/-- The letter of an escape that gives a character's code. -/
def smallU : UInt8 := 0x75

/-- The least byte that may stand in a text as it is. -/
def space : UInt8 := 0x20

/-- The letters of the short escapes, and the bytes they stand for. -/
def shortEscapes : List (UInt8 × UInt8) :=
  [(0x22, 0x22), (0x5c, 0x5c), (0x2f, 0x2f), (0x62, 0x08), (0x66, 0x0c), (0x6e, 0x0a),
    (0x72, 0x0d), (0x74, 0x09)]

end RoutedSession.Json.Mark
