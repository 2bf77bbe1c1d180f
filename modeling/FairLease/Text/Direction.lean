import FairLease.Text.CharTable

/-!
# Direction of characters

Letters and numbers are written from left to right or from right to left, and
other characters follow the text around them. The table tells apart the
characters that may occur in domain names.
-/

namespace FairLease.Text

inductive Direction where
  | leftToRight
  | rightToLeft
  | arabicLetter
  | europeanNumber
  | arabicNumber
  | numberSeparator
  | numberTerminator
  | commonSeparator
  | mark
  | neutral
  | boundary
  /-- Blanks and separators of lines and paragraphs. -/
  | blank
  deriving DecidableEq, Repr

def Direction.read : List Char -> Direction
  | ['R'] => rightToLeft
  | ['A', 'L'] => arabicLetter
  | ['E', 'N'] => europeanNumber
  | ['A', 'N'] => arabicNumber
  | ['E', 'S'] => numberSeparator
  | ['E', 'T'] => numberTerminator
  | ['C', 'S'] => commonSeparator
  | ['N', 'S', 'M'] => mark
  | ['O', 'N'] => neutral
  | ['B', 'N'] => boundary
  | ['B'] => blank
  | ['S'] => blank
  | ['W', 'S'] => blank
  | _ => leftToRight

def directionTable : CharTable Direction :=
  CharTable.ofText Direction.read
    "0: BN 9: S B S WS B BN 1C: B 1F: S WS ON ON ET 26: ON 2B: ES CS ES CS CS EN 3A: CS ON 61: L
    7B: ON 7F: BN A1: ON ET A6: ON B0: ET B6: ON DF: L F7: ON L 2B9: ON ON L 2C2: ON 2D0: L L
    ON 2EE: L ON 300: NSM 371: L 375: ON ON L 3F6: ON ON L 483: NSM 48B: L 58A: ON 58F: ET ET
    NSM 5BE: R NSM R NSM NSM R NSM NSM R NSM 5D0: R 606: ON ON AL ET ET AL CS AL ON ON NSM 61B:
    AL 64B: NSM 660: AN 66A: ET AN AN AL 670: NSM AL 6D6: NSM 6DE: ON NSM 6E5: AL AL NSM NSM ON
    NSM 6EE: AL AL EN 6FA: AL 711: NSM AL 730: NSM 74D: AL 7A6: NSM 7B1: AL 7C0: R 7EB: NSM
    7F4: R R ON 7FA: R 7FD: NSM R 816: NSM 81A: R NSM 824: R NSM 828: R NSM 830: R 859: NSM
    85E: R R AL 897: NSM 8A0: AL 8CA: NSM 903: L 93A: NSM L NSM L 941: NSM 949: L 94D: NSM L
    951: NSM 960: L L NSM NSM L 981: NSM L 9BC: NSM L 9C1: NSM 9C7: L 9CD: NSM L 9E2: NSM 9E6:
    L 9F2: ET ET L 9FB: ET L L NSM A03: L A3C: NSM NSM L A41: NSM A5C: L A70: NSM NSM L A75:
    NSM L A81: NSM NSM L ABC: NSM L AC1: NSM AC9: L ACD: NSM AD0: L AE2: NSM AE6: L AF1: ET
    AF9: L NSM B02: L B3C: NSM L L NSM L NSM B47: L B4D: NSM B57: L B62: NSM B66: L B82: NSM L
    BC0: NSM L BCD: NSM BD0: L BF3: ON BF9: ET ON C00: NSM L C04: NSM L C3C: NSM L NSM C41: L
    C46: NSM C58: L C62: NSM C66: L C78: ON C7F: L L NSM L CBC: NSM L CCC: NSM CD5: L CE2: NSM
    CE6: L D00: NSM NSM L D3B: NSM NSM L D41: NSM D46: L D4D: NSM L D62: NSM D66: L D81: NSM L
    DCA: NSM DCF: L DD2: NSM DD8: L E31: NSM L L NSM E3F: ET L E47: NSM E4F: L EB1: NSM L L NSM
    EBD: L EC8: NSM ED0: L F18: NSM NSM L F35: NSM L NSM L NSM ON F3E: L F71: NSM F7F: L NSM
    F85: L NSM NSM L F8D: NSM FBE: L FC6: NSM L 102D: NSM 1031: L NSM 1038: L NSM NSM L L NSM
    NSM L 1058: NSM NSM L 105E: NSM 1061: L 1071: NSM 1075: L 1082: NSM L L NSM NSM L 108D: NSM
    L 109D: NSM L 135D: NSM 1360: L 1390: ON 13A0: L 1400: ON L 169B: ON 16A0: L 1712: NSM
    1715: L 1732: NSM NSM L 1752: NSM 1760: L 1772: NSM 1780: L 17B7: NSM 17BE: L 17C6: NSM L L
    NSM 17D4: L 17DB: ET L NSM 17E0: L 17F0: ON 1810: L 1885: NSM NSM L 18A9: NSM L 1920: NSM
    1923: L 1927: NSM NSM L 1932: NSM L 1939: NSM 1940: ON 1946: L 19DE: ON 1A00: L 1A17: NSM
    NSM L L NSM 1A1E: L 1A56: NSM L NSM 1A61: L NSM L L NSM 1A6D: L 1A73: NSM 1A80: L 1AB0: NSM
    1B04: L 1B34: NSM L NSM 1B3B: L NSM L 1B42: NSM L 1B6B: NSM 1B74: L 1B80: NSM NSM L 1BA2:
    NSM 1BA6: L L NSM NSM L NSM 1BAE: L 1BE6: NSM L NSM NSM L 1BED: NSM L NSM 1BF2: L 1C2C: NSM
    1C34: L L NSM 1C3B: L 1CD0: NSM 1CD3: L NSM 1CE1: L NSM 1CE9: L 1CED: NSM L 1CF4: NSM L
    1CF8: NSM NSM L 1DC0: NSM 1E01: L 200C: BN 2010: ON 2030: ET 2035: ON 2044: CS ON 20A0: ET
    20D0: NSM 2104: ON 212E: ET 213A: ON 214E: L 218A: ON 2212: ES ET ON 2336: L 237B: ON 2395:
    L ON 26AC: L ON 2800: L 2900: ON 2C30: L 2CE5: ON 2CEC: L 2CEF: NSM 2CF3: L 2CF9: ON 2D00:
    L 2D7F: NSM L 2DE0: NSM 2E00: ON 3005: L 3008: ON 3021: L 302A: NSM 302E: L L ON L 3037: ON
    303B: L L ON 3041: L 3099: NSM 309D: L 30A0: ON L 30FB: ON L 31C0: ON 31F0: L 4DC0: ON
    4E00: L A490: ON A4D0: L A60D: ON A610: L A66F: NSM A673: ON NSM A67E: ON A681: L A69E: NSM
    NSM L A6F0: NSM NSM L A700: ON A723: L A788: ON L A802: NSM L A806: NSM L A80B: NSM L A825:
    NSM NSM L ON A82C: NSM A830: L A838: ET A840: L A874: ON A880: L A8C4: NSM A8CE: L A8E0:
    NSM A8F2: L A8FF: NSM L A926: NSM A92E: L A947: NSM A952: L A980: NSM A983: L A9B3: NSM L L
    NSM A9BA: L L NSM NSM L A9E5: NSM L AA29: NSM AA2F: L L NSM NSM L L NSM AA40: L AA43: NSM L
    AA4C: NSM L AA7C: NSM L AAB0: NSM L NSM AAB5: L L NSM NSM L AABE: NSM NSM L NSM L AAEC: NSM
    NSM L AAF6: NSM AB01: L AB6A: ON ABC0: L ABE5: NSM L L NSM L ABED: NSM ABF0: L FB1E: NSM
    FBB2: AL FBC3: ON FE20: NSM FE45: ON FE73: AL 10000: L 10101: ON L 10140: ON 1018D: L
    10190: ON 101D0: L 101FD: NSM 10280: L 102E0: NSM EN 10300: L 10376: NSM 10380: L 10800: R
    1091F: ON R 10A01: NSM 10A10: R 10A38: NSM 10A40: R 10AE5: NSM 10AEB: R 10B39: ON 10B40: R
    10D00: AL 10D24: NSM 10D30: AN 10D40: R 10D69: NSM 10D6E: ON R 10E60: AN 10E80: R 10EAB:
    NSM NSM R 10EC2: AL 10ED0: ON 10EFA: NSM 10F00: R 10F30: AL 10F46: NSM 10F51: AL 10F70: R
    10F82: NSM 10F86: R 11000: L NSM L 11038: NSM 11047: L 11052: ON 11066: L 11070: NSM L L
    NSM NSM L 1107F: NSM 11082: L 110B3: NSM 110B7: L L NSM NSM L 110C2: NSM 110D0: L 11100:
    NSM 11103: L 11127: NSM 1112C: L NSM 11136: L 11173: NSM L 11180: NSM NSM L 111B6: NSM
    111BF: L 111C9: NSM 111CD: L L NSM L 1122F: NSM 11232: L L NSM L NSM NSM L 1123E: NSM L L
    NSM 11280: L 112DF: NSM L 112E3: NSM 112F0: L 11300: NSM NSM L 1133B: NSM NSM L 11340: NSM
    L 11366: NSM 11380: L 113BB: NSM 113C2: L 113CE: NSM L NSM L NSM L 113E1: NSM 11400: L
    11438: NSM 11440: L L NSM 11445: L NSM L 1145E: NSM L 114B3: NSM 114B9: L NSM L 114BF: NSM
    NSM L NSM NSM L 115B2: NSM 115B8: L 115BC: NSM NSM L NSM NSM L 115DC: NSM 11600: L 11633:
    NSM 1163B: L L NSM L NSM NSM L 11660: ON 11680: L 116AB: NSM L NSM L L NSM 116B6: L NSM L
    1171D: NSM 11720: L L NSM 11726: L NSM 11730: L 1182F: NSM 11838: L NSM NSM L 1193B: NSM
    NSM L NSM L 11943: NSM L 119D4: NSM 119DC: L 119E0: NSM L 11A01: NSM 11A07: L L NSM NSM L
    11A33: NSM 11A39: L L NSM 11A3F: L 11A47: NSM 11A50: L NSM 11A57: L L NSM 11A5C: L 11A8A:
    NSM 11A97: L NSM NSM L 11B60: NSM L NSM 11B65: L NSM L 11C30: NSM 11C3E: L 11C92: NSM
    11CA9: L NSM 11CB1: L NSM NSM L NSM 11D00: L 11D31: NSM 11D46: L NSM 11D50: L 11D90: NSM
    11D93: L L NSM L NSM L 11EF3: NSM NSM L 11F00: NSM NSM L 11F36: NSM 11F3E: L L NSM L NSM L
    11F5A: NSM 11FB0: L 11FD5: ON 11FDD: ET 11FE1: ON 11FFF: L 13440: NSM L 13447: NSM 13460: L
    1611E: NSM 1612A: L 1612D: NSM 16130: L 16AF0: NSM 16AF5: L 16B30: NSM 16B37: L 16F4F: NSM
    L 16F8F: NSM 16F93: L 16FE2: ON L NSM 16FF0: L 1BC9D: NSM NSM L 1CC00: ON 1CF00: NSM 1CF50:
    L 1D167: NSM 1D16A: L 1D17B: NSM 1D183: L L NSM 1D18C: L 1D1AA: NSM 1D1AE: L 1D1E9: ON
    1D242: NSM 1D245: ON 1D2C0: L 1D300: ON 1D360: L 1DA00: NSM 1DA37: L 1DA3B: NSM 1DA6D: L
    1DA75: NSM L 1DA84: NSM L 1DA9B: NSM 1DF00: L 1E000: NSM 1E100: L 1E130: NSM 1E137: L
    1E2AE: NSM 1E2C0: L 1E2EC: NSM 1E2F0: L 1E2FF: ET 1E4D0: L 1E4EC: NSM 1E4F0: L 1E5EE: NSM
    NSM L 1E6E3: NSM L L NSM L 1E6EE: NSM NSM L 1E6F5: NSM 1E6FE: L 1E800: R 1E8D0: NSM 1E922:
    R 1E944: NSM 1E94B: R 1EC71: AL 1EEF0: ON 1F150: L 1F16D: ON 1F170: L 1F1AD: ON 1F1E6: L
    1F260: ON 20000: L"

def direction (c : Char) : Direction :=
  directionTable.entryFor .leftToRight c

end FairLease.Text
