import FairLease.Text.CharTable

/-!
# Joining scripts

In joining scripts the shape of a letter depends on its neighbours. A joiner
between two letters shows only where the letters would join.
-/

namespace FairLease.Text

/-- To which neighbours a character joins. -/
inductive Joining where
  | neither
  | left
  | right
  | both
  | causing
  /-- Does not count as a neighbour. -/
  | transparent
  deriving DecidableEq, Repr

namespace Joining

def read : List Char -> Joining
  | ['L'] => left
  | ['R'] => right
  | ['D'] => both
  | ['C'] => causing
  | ['T'] => transparent
  | _ => neither

def joinsLeft (j : Joining) : Bool :=
  j == left || j == both

def joinsRight (j : Joining) : Bool :=
  j == right || j == both

end Joining

def joiningTable : CharTable Joining :=
  CharTable.ofText Joining.read
    "0: U 300: T 371: U 483: T 48B: U 591: T 5BE: U T U T T U T T U T 5D0: U 610: T 61B: U 620:
    D U R 626: D R D R D 62F: R 633: D 640: C D 648: R D D T 660: U 66E: D D T R R R U 679: D
    688: R 69A: D 6C0: R D D R 6CC: D R D R D D R R U R T 6DE: U T 6E5: U U T T U T 6EE: R R U
    6FA: D D D U U D U 710: R T D D D R 71A: D 71E: R D 728: R D R D R D D R T 74D: R D 759: R
    R R D 76B: R R D 771: R D R R D D D R R D 780: U 7A6: T 7B1: U 7CA: D 7EB: T 7F4: U 7FA: C
    C C T U 816: T 81A: U T 824: U T T T U T 830: U 840: R D 846: R R D R D 854: R D R R R T
    85E: U U D U D 866: U R D R 883: C C C D U U D 88E: R D 897: T 8A0: D 8AA: R R R U R D D R
    R D 8B9: R D 8C9: U T 903: U 93A: T U T U 941: T 949: U 94D: T U U U T 960: U U T T U 981:
    T U 9BC: T U 9C1: T 9C7: U 9CD: T U 9E2: T 9E6: U 9FE: T A03: U A3C: T T U U U T A5C: U
    A70: T T U U U T U A81: T T U ABC: T U AC1: T AC9: U ACD: T T T U AE2: T AE6: U AFA: T B02:
    U B3C: T U U T U T B47: U B4D: T B57: U B62: T B66: U B82: T U BC0: T U BCD: T T T U C00: T
    U U U T U C3C: T U T T T U C46: T C58: U C62: T C66: U C81: T U CBC: T U U T U CC6: T U
    CCC: T CD5: U CE2: T CE6: U D00: T T U D3B: T T U D41: T D46: U D4D: T U D62: T D66: U D81:
    T U DCA: T DCF: U U U T DD8: U E31: T U U T E3F: U E47: T E4F: U EB1: T U U T EBD: U EC8: T
    ED0: U F18: T T U F35: T U T U T U F71: T F7F: U T F85: U T T U F8D: T FBE: U FC6: T U
    102D: T 1031: U T 1038: U T T U U T T U 1058: T T U 105E: T T T U 1071: T 1075: U 1082: T U
    U T T U 108D: T U 109D: T U 135D: T T T U 1712: T T T U 1732: T T U 1752: T 1760: U 1772: T
    1780: U 17B7: T 17BE: U 17C6: T U U T 17D4: U 17DD: T T T U 1807: D U U C 1810: U 1820: D
    1880: U 1885: T T D 18A9: T D 18B0: U 1920: T T T U 1927: T T U 1932: T U 1939: T 1940: U
    1A17: T T U U T T T U 1A56: T U T 1A61: U T U U T 1A6D: U 1A73: T 1A80: U 1AB0: T 1B04: U
    1B34: T U T 1B3B: U T U 1B42: T U 1B6B: T 1B74: U 1B80: T T U 1BA2: T 1BA6: U U T T U T T T
    U 1BE6: T U T T U U U T U T T T U 1C2C: T 1C34: U U T 1C3B: U 1CD0: T T T U T 1CE1: U T
    1CE9: U 1CED: T U 1CF4: T U U U T T U 1DC0: T 1E01: U 200D: C C C U 20D0: T 2104: U 2CEF: T
    2CF3: U 2D7F: T U 2DE0: T 2E00: U 302A: T 302E: U 3099: T 309D: U A66F: T A673: U T A67E: U
    A69E: T T U A6F0: T T U A802: T U U U T U A80B: T U A825: T T U A82C: T A830: U A840: D
    A872: L U A8C4: T A8CE: U A8E0: T A8F2: U A8FF: T U A926: T A92E: U A947: T A952: U A980: T
    T T U A9B3: T U U T A9BA: U U T T U A9E5: T U AA29: T AA2F: U U T T U U T AA40: U U U T U
    AA4C: T U AA7C: T U AAB0: T U T T T U U T T U AABE: T T U T U AAEC: T T U AAF6: T AB01: U
    ABE5: T U U T U ABED: T T T U FB1E: T FBB2: U FE20: T FE45: U 101FD: T 10280: U 102E0: T U
    10376: T 10380: U 10A01: T 10A10: U 10A38: T 10A40: U 10AC0: D 10AC5: R U R U R R U U L R
    10AD3: D 10AD7: L D 10ADD: R D D D R U U R T 10AEB: D 10AEF: R U 10B80: D R D R R R D D D R
    D D R D R R D R 10B99: U 10BA9: R 10BAD: D D U 10D00: L D 10D22: R D T 10D30: U 10D69: T
    10D6E: U 10EAB: T T U 10EC2: R D D U D 10ED0: U 10EFA: T 10F00: U 10F30: D D D R D 10F45: U
    T 10F51: D D D R U 10F70: D 10F74: R R D 10F82: T 10F86: U 10FB0: D U D D R R R U D R R D D
    R D D U D R R D U 10FC9: R D L 10FE0: U 11001: T U 11038: T 11047: U 11070: T U U T T U
    1107F: T T T U 110B3: T 110B7: U U T T U 110C2: T 110D0: U 11100: T T T U 11127: T 1112C: U
    T 11136: U 11173: T U 11180: T T U 111B6: T 111BF: U 111C9: T 111CD: U U T U 1122F: T T T U
    U T U T T U 1123E: T U U T 11280: U 112DF: T U U U T 112F0: U 11300: T T U 1133B: T T U U U
    T U 11366: T 11380: U 113BB: T 113C2: U 113CE: T U T U T U 113E1: T 11400: U 11438: T
    11440: U U T T T U T U 1145E: T U 114B3: T 114B9: U T U 114BF: T T U T T U 115B2: T 115B8:
    U 115BC: T T U T T U 115DC: T 11600: U 11633: T 1163B: U U T U T T U 116AB: T U T U U T
    116B6: U T U 1171D: T U T U U T 11726: U T 11730: U 1182F: T 11838: U T T U 1193B: T T U T
    U 11943: T U 119D4: T 119DC: U 119E0: T U 11A01: T 11A0B: U 11A33: T 11A39: U U T 11A3F: U
    11A47: T 11A50: U T 11A57: U U T T T U 11A8A: T 11A97: U T T U 11B60: T U T T T U T U
    11C30: T 11C3E: U T U 11C92: T 11CA9: U T 11CB1: U T T U T 11D00: U 11D31: T 11D46: U T
    11D50: U 11D90: T T T U U T U T U 11EF3: T T U 11F00: T T U 11F36: T 11F3E: U U T U T U
    11F5A: T 11FB0: U 13440: T U 13447: T 13460: U 1611E: T 1612A: U U U T T T U 16AF0: T
    16AF5: U 16B30: T 16B37: U 16F4F: T U 16F8F: T 16F93: U 16FE4: T 16FF0: U 1BC9D: T T U
    1CF00: T 1CF50: U 1D167: T T T U 1D17B: T 1D183: U U T 1D18C: U 1D1AA: T 1D1AE: U 1D242: T
    T T U 1DA00: T 1DA37: U 1DA3B: T 1DA6D: U 1DA75: T U 1DA84: T U 1DA9B: T 1DF00: U 1E000: T
    1E100: U 1E130: T 1E137: U 1E2AE: T 1E2C0: U 1E2EC: T 1E2F0: U 1E4EC: T 1E4F0: U 1E5EE: T T
    U 1E6E3: T U U T U 1E6EE: T T U 1E6F5: T 1E6FE: U 1E8D0: T 1E922: D 1E944: T 1E950: U"

def joining (c : Char) : Joining :=
  joiningTable.entryFor .neither c

end FairLease.Text
