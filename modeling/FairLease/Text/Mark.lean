import FairLease.Text.CharTable

/-!
# Marks

Marks go with the character before them. The combining class of a mark says
where it is attached: marks of different classes may change places, and other
characters and marks that stay in their place have class zero.
-/

namespace FairLease.Text

/-- The characters of the general category of marks. -/
def markTable : CharTable Bool :=
  classTable
    "0: - 300: + 370: - 483: + 48A: - 591: + 5BE: - + - + + - + + - + - 610: + 61B: - 64B: +
    660: - 670: + - 6D6: + 6DD: - - + 6E5: - - + + - + + + + - 711: + - 730: + 74B: - 7A6: +
    7B1: - 7EB: + 7F4: - 7FD: + - 816: + + + + - + 824: - + + + - + 82E: - 859: + + + - 897: +
    8A0: - 8CA: + 8E2: - + 904: - 93A: + + + - + 950: - + 958: - 962: + + - 981: + + + - 9BC: +
    - + 9C5: - - + + - - + + + - 9D7: + - 9E2: + + - 9FE: + - - + + + - A3C: + - + A43: - - - -
    + + - - + + + - - - + - A70: + + - - - + - A81: + + + - ABC: + - + AC6: - + + + - + + + -
    AE2: + + - AFA: + B00: - + + + - B3C: + - + B45: - - + + - - + + + - B55: + + + - B62: + +
    - B82: + - BBE: + BC3: - - - + + + - + + + + - BD7: + - C00: + C05: - C3C: + - + C45: - + +
    + - + + + + - C55: + + - C62: + + - C81: + + + - CBC: + - + CC5: - + + + - + + + + - CD5: +
    + - CE2: + + - CF3: + - D00: + + + + - D3B: + + - + D45: - + + + - + + + + - D57: + - D62:
    + + - D81: + + + - DCA: + - - - - + DD5: - + - + DE0: - DF2: + + - E31: + - - + E3B: - E47:
    + E4F: - EB1: + - - + EBD: - EC8: + ECF: - F18: + + - F35: + - + - + - - - - + + - F71: +
    F85: - + + - F8D: + F98: - + FBD: - FC6: + - 102B: + 103F: - 1056: + + + + - - - - + + + -
    + + + - - + 106E: - - - + + + + - 1082: + 108E: - + - 109A: + + + + - 135D: + + + - 1712: +
    + + + - 1732: + + + - 1752: + + - 1772: + + - 17B4: + 17D4: - 17DD: + - 180B: + + + - + -
    1885: + + - 18A9: + - 1920: + 192C: - - - - + 193C: - 1A17: + 1A1C: - 1A55: + 1A5F: - +
    1A7D: - - + - 1AB0: + 1ADE: - - + 1AEC: - 1B00: + 1B05: - 1B34: + 1B45: - 1B6B: + 1B74: -
    1B80: + + + - 1BA1: + 1BAE: - 1BE6: + 1BF4: - 1C24: + 1C38: - 1CD0: + + + - + 1CE9: - - - -
    + - 1CF4: + - - + + + - 1DC0: + 1E00: - 20D0: + 20F1: - 2CEF: + + + - 2D7F: + - 2DE0: +
    2E00: - 302A: + 3030: - 3099: + + - A66F: + + + + - + A67E: - A69E: + + - A6F0: + + - A802:
    + - - - + - - - - + - A823: + A828: - - - - + - A880: + + - A8B4: + A8C6: - A8E0: + A8F2: -
    A8FF: + - A926: + A92E: - A947: + A954: - A980: + + + + - A9B3: + A9C1: - A9E5: + - AA29: +
    AA37: - AA43: + - AA4C: + + - AA7B: + + + - AAB0: + - + + + - - + + - AABE: + + - + - AAEB:
    + AAF0: - AAF5: + + - ABE3: + ABEB: - + + - FB1E: + - FE00: + FE10: - FE20: + FE30: -
    101FD: + - 102E0: + - 10376: + 1037B: - 10A01: + + + - + + - 10A0C: + + + + - 10A38: + + +
    - - - - + - 10AE5: + + - 10D24: + + + + - 10D69: + 10D6E: - 10EAB: + + - 10EFA: + 10F00: -
    10F46: + 10F51: - 10F82: + + + + - 11000: + + + - 11038: + 11047: - 11070: + - - + + -
    1107F: + + + + - 110B0: + 110BB: - 110C2: + - 11100: + + + - 11127: + 11135: - 11145: + + -
    11173: + - 11180: + + + - 111B3: + 111C1: - 111C9: + + + + - + + - 1122C: + 11238: - 1123E:
    + - - + - 112DF: + 112EB: - 11300: + + + + - 1133B: + + - + 11345: - - + + - - + + + -
    11357: + - 11362: + + - - + 1136D: - - - + 11375: - 113B8: + 113C1: - + - - + - + + + + - +
    113D1: - + - 113E1: + + - 11435: + 11447: - 1145E: + - 114B0: + 114C4: - 115AF: + 115B6: -
    - + 115C1: - 115DC: + + - 11630: + 11641: - 116AB: + 116B8: - 1171D: + 1172C: - 1182C: +
    1183B: - 11930: + 11936: - + + - - + + + + - + - + + - 119D1: + 119D8: - - + 119E1: - - - +
    - 11A01: + 11A0B: - 11A33: + 11A3A: - + + + + - 11A47: + - 11A51: + 11A5C: - 11A8A: +
    11A9A: - 11B60: + 11B68: - 11C2F: + 11C37: - + 11C40: - 11C92: + 11CA8: - + 11CB7: - 11D31:
    + 11D37: - - - + - + + - + 11D46: - + - 11D8A: + 11D8F: - + + - + 11D98: - 11EF3: + + + + -
    11F00: + + - + - 11F34: + 11F3B: - - - + 11F43: - 11F5A: + - 13440: + - 13447: + 13456: -
    1611E: + 16130: - 16AF0: + 16AF5: - 16B30: + 16B37: - 16F4F: + - + 16F88: - 16F8F: + + + +
    - 16FE4: + - 16FF0: + + - 1BC9D: + + - 1CF00: + 1CF2E: - - + 1CF47: - 1D165: + 1D16A: - - -
    + 1D173: - 1D17B: + 1D183: - - + 1D18C: - 1D1AA: + + + + - 1D242: + + + - 1DA00: + 1DA37: -
    - - - + 1DA6D: - 1DA75: + - 1DA84: + - 1DA9B: + 1DAA0: - + 1DAB0: - 1E000: + 1E007: - +
    1E019: - - + 1E022: - + + - + 1E02B: - 1E08F: + - 1E130: + 1E137: - 1E2AE: + - 1E2EC: + + +
    + - 1E4EC: + + + + - 1E5EE: + + - 1E6E3: + - - + - 1E6EE: + + - 1E6F5: + - 1E8D0: + 1E8D7:
    - 1E944: + 1E94B: - E0100: + E01F0: -"

def isMark (c : Char) : Bool :=
  markTable.entryFor false c

/-!
## Combining classes
-/

def combiningTable : CharTable Nat :=
  CharTable.ofText digitsValue
    "0: 0 300: 230 315: 232 220 31A: 232 216 220 321: 202 202 220 327: 202 202 220 334: 1 339:
    220 33D: 230 344: 0 240 230 220 34A: 230 34D: 220 220 0 230 353: 220 357: 230 232 220 220
    230 233 234 234 233 234 234 233 230 370: 0 483: 230 488: 0 591: 220 230 596: 220 230 59A:
    222 220 230 5A2: 220 5A8: 230 230 220 230 230 222 228 230 10 11 12 13 14 15 16 17 18 19 19
    20 21 22 0 23 0 24 25 0 230 220 0 18 0 610: 230 618: 30 31 32 0 64B: 27 28 29 30 31 32 33
    34 230 230 220 220 230 65C: 220 230 230 220 0 670: 35 0 6D6: 230 6DD: 0 0 230 6E3: 220 230
    0 0 230 230 0 220 230 230 220 0 711: 36 0 730: 230 220 230 230 220 230 230 220 73A: 230 220
    220 230 220 230 742: 220 230 220 230 220 230 220 230 230 0 7EB: 230 7F2: 220 230 0 7FD: 220
    0 816: 230 81A: 0 230 824: 0 230 828: 0 230 82E: 0 859: 220 85C: 0 897: 230 230 220 89C:
    230 8A0: 0 8CA: 230 8CF: 220 8D4: 230 8E2: 0 220 230 230 220 230 230 220 230 8ED: 220 8F0:
    27 28 29 230 8F6: 220 230 230 220 220 230 900: 0 93C: 7 0 94D: 9 0 951: 230 220 230 230 0
    9BC: 7 0 9CD: 9 0 9FE: 230 0 A3C: 7 0 A4D: 9 0 ABC: 7 0 ACD: 9 0 B3C: 7 0 B4D: 9 0 BCD: 9 0
    C3C: 7 0 C4D: 9 0 C55: 84 91 0 CBC: 7 0 CCD: 9 0 D3B: 9 9 0 D4D: 9 0 DCA: 9 0 E38: 103 103
    9 0 E48: 107 E4C: 0 EB8: 118 118 9 0 EC8: 122 ECC: 0 F18: 220 220 0 F35: 220 0 220 0 216 0
    F71: 129 130 0 132 0 F7A: 130 F7E: 0 0 130 0 230 230 9 0 230 230 0 FC6: 220 0 1037: 7 0 9 9
    0 108D: 220 0 135D: 230 1360: 0 1714: 9 9 0 1734: 9 0 17D2: 9 0 17DD: 230 0 18A9: 228 0
    1939: 222 230 220 0 1A17: 230 220 0 1A60: 9 0 1A75: 230 1A7D: 0 0 220 0 1AB0: 230 1AB5: 220
    1ABB: 230 230 220 0 220 220 230 230 220 220 230 1ACA: 220 230 1ADD: 220 0 0 230 1AE6: 220
    230 1AEB: 234 0 1B34: 7 0 1B44: 9 0 1B6B: 230 220 230 1B74: 0 1BAA: 9 9 0 1BE6: 7 0 1BF2: 9
    9 0 1C37: 7 0 1CD0: 230 1CD3: 0 1 220 1CDA: 230 230 220 1CE0: 230 0 1 1CE9: 0 1CED: 220 0
    1CF4: 230 0 1CF8: 230 230 0 1DC0: 230 230 220 230 1DCA: 220 230 230 234 214 220 202 230
    1DF6: 232 228 228 220 218 230 233 220 230 220 0 20D0: 230 230 1 1 230 20D8: 1 20DB: 230 230
    0 20E1: 230 0 20E5: 1 1 230 220 230 1 1 220 20F0: 230 0 2CEF: 230 2CF2: 0 2D7F: 9 0 2DE0:
    230 2E00: 0 302A: 218 228 232 222 224 224 0 3099: 8 8 0 A66F: 230 0 A674: 230 A67E: 0 A69E:
    230 230 0 A6F0: 230 230 0 A806: 9 0 A82C: 9 0 A8C4: 9 0 A8E0: 230 A8F2: 0 A92B: 220 A92E: 0
    A953: 9 0 A9B3: 7 0 A9C0: 9 0 AAB0: 230 0 230 230 220 0 0 230 230 0 AABE: 230 230 0 230 0
    AAF6: 9 0 ABED: 9 0 FB1E: 26 0 FE20: 230 FE27: 220 FE2E: 230 230 0 101FD: 220 0 102E0: 220
    0 10376: 230 1037B: 0 10A0D: 220 0 230 0 10A38: 230 1 220 0 10A3F: 9 0 10AE5: 230 220 0
    10D24: 230 10D28: 0 10D69: 230 10D6E: 0 10EAB: 230 230 0 10EFA: 220 220 0 220 10F00: 0
    10F46: 220 220 230 10F4B: 220 230 220 10F51: 0 10F82: 230 220 230 220 0 11046: 9 0 11070: 9
    0 1107F: 9 0 110B9: 9 7 0 11100: 230 11103: 0 11133: 9 9 0 11173: 7 0 111C0: 9 0 111CA: 7 0
    11235: 9 7 0 112E9: 7 9 0 1133B: 7 7 0 1134D: 9 0 11366: 230 1136D: 0 11370: 230 11375: 0
    113CE: 9 113D1: 0 11442: 9 0 11446: 7 0 1145E: 230 0 114C2: 9 7 0 115BF: 9 7 0 1163F: 9 0
    116B6: 9 7 0 1172B: 9 0 11839: 9 7 0 1193D: 9 9 0 11943: 7 0 119E0: 9 0 11A34: 9 0 11A47: 9
    0 11A99: 9 0 11C3F: 9 0 11D42: 7 0 9 9 0 11D97: 9 0 11F41: 9 9 0 1612F: 9 0 16AF0: 1 16AF5:
    0 16B30: 230 16B37: 0 16FF0: 6 6 0 1BC9E: 1 0 1D165: 216 216 1 1D16A: 0 1D16D: 226 216
    1D173: 0 1D17B: 220 1D183: 0 0 230 1D18A: 220 220 0 1D1AA: 230 1D1AE: 0 1D242: 230 1D245: 0
    1E000: 230 1E007: 0 230 1E019: 0 0 230 1E022: 0 230 230 0 230 1E02B: 0 1E08F: 230 0 1E130:
    230 1E137: 0 1E2AE: 230 0 1E2EC: 230 1E2F0: 0 1E4EC: 232 232 220 230 0 1E5EE: 230 220 0
    1E6E3: 230 0 0 230 0 1E6EE: 230 230 0 1E6F5: 230 0 1E8D0: 220 1E8D7: 0 1E944: 230 1E94A: 7
    0"

def combiningClass (c : Char) : Nat :=
  combiningTable.entryFor 0 c

/-- A sign that takes the vowel from a consonant, and so may join it to the
next. -/
def isVirama (c : Char) : Bool :=
  combiningClass c == 9

end FairLease.Text
