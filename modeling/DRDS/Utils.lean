import Mathlib.Data.List.Basic

/-! The constants and membership tests the servers and the handler share. -/
namespace DRDS.Utils

def buffLen : ℕ := 65536
def pktLen : ℕ := 4500
def outputBufferLen : ℕ := 65536
def serviceHeaderLen : UInt8 := 6
def subHeaderLen : UInt8 := 8

/-- The values of `SYSTEM_ID`. -/
def systemID : List UInt8 := [0, 1, 2, 11, 10, 5, 3, 6, 8, 9, 7]

def msgOuter : UInt8 := 1

def priorityNormal : UInt8 := 3
def priorityMedium : UInt8 := 5
def priorityHight : UInt8 := 7

def versionV0 : UInt8 := 0
def reserved : UInt8 := 0

def serSend : UInt8 := 0
def serRequest : UInt8 := 1
def serPublish : UInt8 := 2
def serSubscribe : UInt8 := 3
def serResponse : UInt8 := 0x0A

def flagSingle : UInt8 := 0
def flagError : UInt8 := 0xFF

def timeSimuLast : UInt32 := 0xFFFFFFFF

def paramterRequestLast : UInt16 := 0xFFFF

def isValidSystemID (id : UInt8) : Bool := systemID.any (· == id)

def uint8Contains (s : List UInt8) (i : UInt8) : Bool := s.any (· == i)

def uint16Contains (s : List UInt16) (i : UInt16) : Bool := s.any (· == i)

@[simp] theorem uint8Contains_iff (s : List UInt8) (i : UInt8) :
    uint8Contains s i = true ↔ i ∈ s := by
  simp [uint8Contains]

@[simp] theorem uint16Contains_iff (s : List UInt16) (i : UInt16) :
    uint16Contains s i = true ↔ i ∈ s := by
  simp [uint16Contains]

end DRDS.Utils
