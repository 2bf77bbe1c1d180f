import FairLease.Text.CharTable

/-!
# Visible characters

A character is visible when it shows by itself. Control, format, private use
and unassigned characters, separators other than the space and characters that
may be ignored are not visible, and neither are characters that extend the one
before them, apart from the half width voicing marks.
-/

namespace FairLease.Text

def visibleTable : CharTable Bool :=
  classTable
    "0: - 20: + 7F: - A1: + AD: - + 300: - 370: + 378: - - + 380: - - - - + 38B: - + - + 3A2: -
    + 483: - 48A: + 530: - + 557: - - + 58B: - - + + + - 5BE: + - + - - + - - + - 5D0: + 5EB: -
    - - - + 5F5: - 606: + 610: - 61B: + - + 64B: - 660: + 670: - + 6D6: - 6DE: + - 6E5: + + - -
    + - - - - + 70E: - - + - + 730: - 74D: + 7A6: - 7B1: + - 7C0: + 7EB: - 7F4: + 7FB: - - - +
    816: - - - - + - 824: + - - - + - 830: + 83F: - + 859: - 85E: + - + 86B: - 870: + 890: -
    8A0: + 8CA: - 903: + 93A: - + - + + + + - 949: + + + + - + + + - 958: + 962: - - + 981: - +
    + - + 98D: - - + + - - + 9A9: - + 9B1: - + - - - + + + + - - - + - + + - 9C7: + + - - + + -
    + - 9DC: + + - + + + - - - - + 9FE: - A03: + - + A0B: - - - - + + - - + A29: - + A31: - + +
    - + + - + + - - - - + + + - A59: + + + + - + - A66: + A70: - - + + + - + - A83: + - + A8E:
    - + + + - + AA9: - + AB1: - + + - + ABA: - - - + + + + - AC9: + - + + - - - + - AE0: + + -
    - - - + AF2: - AF9: + - B02: + + - + B0D: - - + + - - + B29: - + B31: - + + - + B3A: - - -
    + - - + - B47: + + - - + + - B5C: + + - + + + - - - - + B78: - B83: + - + B8B: - - - + + +
    - + + + + - - - + + - + - + + - - - + + - - - + + + - - - + BBA: - BBF: + - + + - - - + + +
    - + + + - - - + - BE6: + BFB: - C01: + + + - + C0D: - + + + - + C29: - + C3A: - - - + - - -
    + + + + - C58: + + + - + + - - + + - - - - + C70: - C77: + C81: - + C8D: - + + + - + CA9: -
    + CB4: - + CBA: - - - + + - - + - + + - CDC: + + + - + + - - - - + CF0: - + + + - D02: +
    D0D: - + + + - + D3B: - - + - + + - D46: + + + - + + + - + + - - - - + + + - + D62: - - - -
    + D80: - - + + - + D97: - - - + DB2: - + DBC: - + - - + DC7: - DD0: + + - DD8: + DDF: -
    DE6: + DF0: - - + + + - E01: + E31: - + + - E3F: + E47: - E4F: + E5C: - E81: + + - + - +
    E8B: - + EA4: - + - + EB1: - + + - EBD: + - - + EC5: - + - ED0: + EDA: - - + + + + - F00: +
    F18: - - + F35: - + - + - + F48: - + F6D: - F7F: + - F85: + - - + F8D: - FBE: + FC6: - +
    FCD: - + FDB: - 1000: + 102D: - - - - + - 1038: + - - + + - - + 1058: - - + + + + - - - +
    1071: - - - - + 1082: - + + - - + 108D: - + 109D: - + 10C6: - + - 10CD: + - - + 115F: - - +
    1249: - + + + + - - + 1257: - + - + + + + - - + 1289: - + + + + - - + 12B1: - + + + + - - +
    12BF: - + - + + + + - - + 12D7: - + 1311: - + + + + - - + 135B: - 1360: + 137D: - - - +
    139A: - 13A0: + 13F6: - - + 13FE: - - + 1680: - + 169D: - - - + 16F9: - 1700: + 1712: -
    171F: + 1732: - - - + + - 1740: + 1752: - 1760: + 176D: - + + + - 1780: + 17B4: - - + -
    17BE: + 17C6: - + + - 17D4: + 17DD: - - - + 17EA: - 17F0: + 17FA: - 1800: + 180B: - 1810: +
    181A: - 1820: + 1879: - 1880: + 1885: - - + 18A9: - + - 18B0: + 18F6: - 1900: + 191F: - - -
    - + + + + - - + + + - - - - + + - + 1939: - 1940: + - - - + 196E: - - + 1975: - 1980: +
    19AC: - - - - + 19CA: - 19D0: + 19DB: - - - + 1A17: - - + + - - - + 1A56: - + - 1A61: + - +
    + - 1A6D: + 1A73: - 1A80: + 1A8A: - 1A90: + 1A9A: - 1AA0: + 1AAE: - 1B04: + 1B34: - 1B3E: +
    + + + - - - + 1B4D: - + 1B6B: - 1B74: + 1B80: - - + 1BA2: - - - - + + - 1BAE: + 1BE6: - + -
    - + + + - + - 1BFC: + 1C2C: - 1C34: + + - 1C3B: + 1C4A: - - - + 1C8B: - 1C90: + 1CBB: - - +
    1CC8: - 1CD3: + - 1CE1: + - 1CE9: + + + + - + 1CF4: - + + + - - + - 1D00: + 1DC0: - 1E00: +
    1F16: - - + 1F1E: - - + 1F46: - - + 1F4E: - - + 1F58: - + - + - + - + 1F7E: - - + 1FB5: - +
    1FC5: - + 1FD4: - - + 1FDC: - + 1FF0: - - + + + - + 1FFF: - 2010: + 2028: - 2030: + 205F: -
    2070: + + - - + 208F: - + 209D: - - - + 20C2: - 2100: + 218C: - - - - + 242A: - 2440: +
    244B: - 2460: + 2B74: - - + 2CEF: - - - + + - 2CF9: + 2D26: - + - 2D2D: + - - + 2D68: -
    2D6F: + + - 2D80: + 2D97: - 2DA0: + 2DA7: - + 2DAF: - + 2DB7: - + 2DBF: - + 2DC7: - + 2DCF:
    - + 2DD7: - + 2DDF: - 2E00: + 2E5E: - 2E80: + 2E9A: - + 2EF4: - 2F00: + 2FD6: - 2FF0: +
    3000: - + 302A: - 3030: + 3040: - + 3097: - - - - + 3100: - 3105: + 3130: - + 3164: - +
    318F: - + 31E6: - 31EF: + 321F: - + A48D: - - - + A4C7: - A4D0: + A62C: - A640: + A66F: - -
    - - + - A67E: + A69E: - - + A6F0: - - + A6F8: - A700: + A7DD: - A7F1: + A802: - + + + - + +
    + + - + A825: - - + A82C: - - - - + A83A: - A840: + A878: - A880: + A8C4: - A8CE: + A8DA: -
    A8F2: + A8FF: - + A926: - A92E: + A947: - A952: + - A95F: + A97D: - A983: + A9B3: - + + - -
    - - + + - - + + - + A9CE: - + A9DA: - - - - + A9E5: - + A9FF: - + AA29: - AA2F: + + - - + +
    - AA40: + + + - + AA4C: - + - - + AA5A: - - + AA7C: - + AAB0: - + - - - + + - - + AABE: - -
    + - + - AADB: + AAEC: - - + AAF6: - AB01: + AB07: - - + AB0F: - - + AB17: - AB20: + AB27: -
    + AB2F: - + AB6C: - - - - + ABE5: - + + - + + + + - - - + ABFA: - AC00: + D7A4: - D7B0: +
    D7C7: - - - - + D7FC: - F900: + FA6E: - - + FADA: - FB00: + FB07: - FB13: + FB18: - FB1D: +
    - + FB37: - + FB3D: - + - + + - + + - + FDD0: - FDF0: + FE00: - FE10: + FE1A: - FE30: +
    FE53: - + FE67: - + + + + - - - - + FE75: - + FEFD: - - - - + FFA0: - + FFBF: - - - + FFC8:
    - - + FFD0: - - + FFD8: - - + + + - - - + FFE7: - + FFEF: - FFFC: + + - - + 1000C: - +
    10027: - + 1003B: - + + - + 1004E: - - + 1005E: - 10080: + 100FB: - 10100: + + + - - - - +
    10134: - - - + 1018F: - + 1019D: - - - + - 101D0: + 101FD: - 10280: + 1029D: - - - + 102D1:
    - 102E1: + 102FC: - - - - + 10324: - 1032D: + 1034B: - 10350: + 10376: - 10380: + 1039E: -
    + 103C4: - - - - + 103D6: - 10400: + 1049E: - - + 104AA: - 104B0: + 104D4: - - - - + 104FC:
    - - - - + 10528: - 10530: + 10564: - 1056F: + 1057B: - + 1058B: - + 10593: - + + - + 105A2:
    - + 105B2: - + 105BA: - + + - - - + 105F4: - 10600: + 10737: - 10740: + 10756: - 10760: +
    10768: - 10780: + 10786: - + 107B1: - + 107BB: - 10800: + 10806: - - + - + 10836: - + + - -
    - + - - + 10856: - + 1089F: - 108A7: + 108B0: - 108E0: + 108F3: - + + - 108FB: + 1091C: - -
    - + 1093A: - 1093F: + 1095A: - 10980: + 109B8: - - - - + 109D0: - - + 10A01: - 10A10: + + +
    + - + + + - + 10A36: - 10A40: + 10A49: - 10A50: + 10A59: - 10A60: + 10AA0: - 10AC0: +
    10AE5: - 10AEB: + 10AF7: - 10B00: + 10B36: - - - + 10B56: - - + 10B73: - 10B78: + 10B92: -
    10B99: + + + + - 10BA9: + 10BB0: - 10C00: + 10C49: - 10C80: + 10CB3: - 10CC0: + 10CF3: -
    10CFA: + 10D24: - 10D30: + 10D3A: - 10D40: + 10D66: - 10D6E: + 10D86: - 10D8E: + + - 10E60:
    + 10E7F: - + 10EAA: - - - + - - + + - 10EC2: + 10EC8: - 10ED0: + 10ED9: - 10F00: + 10F28: -
    10F30: + 10F46: - 10F51: + 10F5A: - 10F70: + 10F82: - - - - + + + + - 10FB0: + 10FCC: -
    10FE0: + 10FF7: - 11000: + - + 11038: - 11047: + 1104E: - - - - + 11070: - + + - - + -
    11082: + 110B3: - - - - + + - - + + - + + + + - 110D0: + 110E9: - 110F0: + 110FA: - 11103:
    + 11127: - 1112C: + - 11136: + 11148: - 11150: + 11173: - + + + - 11182: + 111B6: - 111BF:
    + - + 111C9: - - - - + + - + 111E0: - + 111F5: - 11200: + 11212: - + 1122F: - - - + + - - -
    - + 1123E: - + + - 11280: + 11287: - + - + + + + - + 1129E: - + 112AA: - 112B0: + 112DF: -
    + + + - 112F0: + 112FA: - 11302: + + - + 1130D: - - + + - - + 11329: - + 11331: - + + - +
    1133A: - - - + - + - + + + + - - + + - - + + - - - + - 1135D: + 11364: - 11380: + 1138A: -
    + - - + - + 113B6: - + - + + - 113CA: + - + + - - - + - + + + - + + - 11400: + 11438: -
    11440: + + - - - + - + 1145C: - + - + + + - 11480: + 114B0: - + + - 114B9: + - + + - + - -
    + - - + + + + - 114D0: + 114DA: - 11580: + 115AF: - + + - 115B8: + + + + - - + - - + 115DC:
    - 11600: + 11633: - 1163B: + + - + - - + + + + - 11650: + 1165A: - 11660: + 1166D: - 11680:
    + 116AB: - + - + + - 116B8: + + - 116C0: + 116CA: - 116D0: + 116E4: - 11700: + 1171B: - - -
    + - + + - - - - + - 11730: + 11747: - 11800: + 1182F: - 11838: + - - + - 118A0: + 118F3: -
    118FF: + 11907: - - + - - + 11914: - + + - + 11930: - + 11936: - + + - 1193F: + + + + - + +
    + - 11950: + 1195A: - 119A0: + 119A8: - - + 119D4: - 119DC: + + + + - + + + + - 11A00: + -
    11A0B: + 11A33: - 11A39: + + - - - - + 11A47: - 11A50: + - 11A57: + + - - - + 11A8A: -
    11A97: + - - + 11AA3: - 11AB0: + 11AF9: - 11B00: + 11B0A: - 11B61: + - - - + - + - 11BC0: +
    11BE2: - 11BF0: + 11BFA: - 11C00: + 11C09: - + 11C30: - 11C3E: + - + 11C46: - 11C50: +
    11C6D: - - - + 11C90: - 11CA9: + - 11CB1: + - - + - 11D00: + 11D07: - + + - + 11D31: -
    11D46: + - 11D50: + 11D5A: - 11D60: + 11D66: - + + - + 11D8F: - - - - + + - + - + - 11DA0:
    + 11DAA: - 11DB0: + 11DDC: - - - - + 11DEA: - 11EE0: + 11EF3: - - + + + + - 11F02: + 11F11:
    - + 11F36: - 11F3E: + + - - - + 11F5A: - 11FB0: + - 11FC0: + 11FF2: - 11FFF: + 1239A: -
    12400: + 1246F: - + 12475: - 12480: + 12544: - 12F90: + 12FF3: - 13000: + 13430: - 13441: +
    13447: - 13460: + 143FB: - 14400: + 14647: - 16100: + 1611E: - 1612A: + + + - - - + 1613A:
    - 16800: + 16A39: - 16A40: + 16A5F: - + 16A6A: - - - - + 16ABF: - + 16ACA: - 16AD0: +
    16AEE: - 16AF5: + - 16B00: + 16B30: - 16B37: + 16B46: - 16B50: + 16B5A: - + 16B62: - +
    16B78: - 16B7D: + 16B90: - 16D40: + 16D7A: - 16E40: + 16E9B: - 16EA0: + 16EB9: - - + 16ED4:
    - 16F00: + 16F4B: - 16F50: + 16F88: - 16F93: + 16FA0: - 16FE0: + + + + - 16FF2: + 16FF7: -
    17000: + 18CD6: - 18CFF: + 18D1F: - 18D80: + 18DF3: - 1AFF0: + + + + - + 1AFFC: - + + - +
    1B123: - 1B132: + - 1B150: + + + - - + - 1B164: + + + + - 1B170: + 1B2FC: - 1BC00: + 1BC6B:
    - 1BC70: + 1BC7D: - - - + 1BC89: - 1BC90: + 1BC9A: - - + - - + - 1CC00: + 1CCFD: - - - +
    1CEB4: - 1CEBA: + 1CED1: - 1CEE0: + 1CEF1: - 1CF50: + 1CFC4: - 1D000: + 1D0F6: - 1D100: +
    1D127: - - + 1D165: - 1D16A: + + + - 1D183: + + - 1D18C: + 1D1AA: - - - - + 1D1EB: - 1D200:
    + 1D242: - - - + - 1D2C0: + 1D2D4: - 1D2E0: + 1D2F4: - 1D300: + 1D357: - 1D360: + 1D379: -
    1D400: + 1D455: - + 1D49D: - + + - - + - - + + - - + + + + - + 1D4BA: - + - + 1D4C4: - +
    1D506: - + + + + - - + 1D515: - + 1D51D: - + 1D53A: - + + + + - + 1D545: - + - - - + 1D551:
    - + 1D6A6: - - + 1D7CC: - - + 1DA00: - 1DA37: + + + + - 1DA6D: + 1DA75: - + 1DA84: - +
    1DA8C: - 1DF00: + 1DF1F: - 1DF25: + 1DF2B: - 1E030: + 1E06E: - 1E100: + 1E12D: - 1E137: +
    1E13E: - - + 1E14A: - - - - + + - 1E290: + 1E2AE: - 1E2C0: + 1E2EC: - - - - + 1E2FA: -
    1E2FF: + - 1E4D0: + 1E4EC: - - - - + 1E4FA: - 1E5D0: + 1E5EE: - - + 1E5FB: - - - - + -
    1E6C0: + 1E6DF: - + + + - + + - + 1E6EE: - - + 1E6F5: - 1E6FE: + + - 1E7E0: + 1E7E7: - + +
    + + - + + - + 1E7FF: - + 1E8C5: - - + 1E8D0: - 1E900: + 1E944: - 1E94B: + - - - - + 1E95A:
    - - - - + + - 1EC71: + 1ECB5: - 1ED01: + 1ED3E: - 1EE00: + + + + - + 1EE20: - + + - + - - +
    - + 1EE33: - + + + + - + - + - 1EE42: + - - - - + - + - + - + + + - + + - + - - + - + - + -
    + - + - + + - + - - + + + + - + 1EE73: - + + + + - + + + + - + - + 1EE8A: - + 1EE9C: -
    1EEA1: + + + - + 1EEAA: - + 1EEBC: - 1EEF0: + + - 1F000: + 1F02C: - - - - + 1F094: - 1F0A0:
    + 1F0AF: - - + 1F0C0: - + 1F0D0: - + 1F0F6: - 1F100: + 1F1AE: - 1F1E6: + 1F203: - 1F210: +
    1F23C: - - - - + 1F249: - 1F250: + + - 1F260: + 1F266: - 1F300: + 1F6D9: - - - + 1F6ED: - -
    - + 1F6FD: - - - + 1F7DA: - 1F7E0: + 1F7EC: - - - - + - 1F800: + 1F80C: - - - - + 1F848: -
    1F850: + 1F85A: - 1F860: + 1F888: - 1F890: + 1F8AE: - - + 1F8BC: - - - - + + - 1F8D0: +
    1F8D9: - 1F900: + 1FA58: - 1FA60: + 1FA6E: - - + 1FA7D: - - - + 1FA8B: - - - + 1FAC7: - + -
    - - - + 1FADD: - - + 1FAEB: - - - - + 1FAF9: - 1FB00: + 1FB93: - + 1FBFB: - 20000: + 2A6E0:
    - 2A700: + 2B81E: - - + 2CEAE: - - + 2EBE1: - 2EBF0: + 2EE5E: - 2F800: + 2FA1E: - 30000: +
    3134B: - 31350: + 3347A: -"

/-- Visible ASCII is decided without the table. -/
def isVisible (c : Char) : Bool :=
  if c.toNat < 0x7F then decide (0x20 ≤ c.toNat)
  else visibleTable.entryFor false c

end FairLease.Text
