import RowSchema.Text.Ranges

/-! Classes of marks. Marks of different classes are written at different places of a character, and
the order of the classes is the order that such marks are brought into. -/

namespace RowSchema.Text

/-- The marks of each class. -/
def markClassRuns : List (Nat × List Run) := [
  (1, [⟨0x334, 0x338, 1⟩, ⟨0x1cd4, 0x1cd4, 1⟩, ⟨0x1ce2, 0x1ce8, 1⟩, ⟨0x20d2, 0x20d3, 1⟩,
    ⟨0x20d8, 0x20da, 1⟩, ⟨0x20e5, 0x20e6, 1⟩, ⟨0x20ea, 0x20eb, 1⟩, ⟨0x10a39, 0x10a39, 1⟩,
    ⟨0x16af0, 0x16af4, 1⟩, ⟨0x1bc9e, 0x1bc9e, 1⟩, ⟨0x1d167, 0x1d169, 1⟩]),
  (6, [⟨0x16ff0, 0x16ff1, 1⟩]),
  (7, [⟨0x93c, 0x93c, 1⟩, ⟨0x9bc, 0x9bc, 1⟩, ⟨0xa3c, 0xa3c, 1⟩, ⟨0xabc, 0xabc, 1⟩,
    ⟨0xb3c, 0xb3c, 1⟩, ⟨0xc3c, 0xc3c, 1⟩, ⟨0xcbc, 0xcbc, 1⟩, ⟨0x1037, 0x1037, 1⟩,
    ⟨0x1b34, 0x1b34, 1⟩, ⟨0x1be6, 0x1be6, 1⟩, ⟨0x1c37, 0x1c37, 1⟩, ⟨0xa9b3, 0xa9b3, 1⟩,
    ⟨0x110ba, 0x110ba, 1⟩, ⟨0x11173, 0x11173, 1⟩, ⟨0x111ca, 0x111ca, 1⟩, ⟨0x11236, 0x11236, 1⟩,
    ⟨0x112e9, 0x112e9, 1⟩, ⟨0x1133b, 0x1133c, 1⟩, ⟨0x11446, 0x11446, 1⟩, ⟨0x114c3, 0x114c3, 1⟩,
    ⟨0x115c0, 0x115c0, 1⟩, ⟨0x116b7, 0x116b7, 1⟩, ⟨0x1183a, 0x1183a, 1⟩, ⟨0x11943, 0x11943, 1⟩,
    ⟨0x11d42, 0x11d42, 1⟩, ⟨0x1e94a, 0x1e94a, 1⟩]), (8, [⟨0x3099, 0x309a, 1⟩]),
  (9, [⟨0x94d, 0x94d, 1⟩, ⟨0x9cd, 0x9cd, 1⟩, ⟨0xa4d, 0xa4d, 1⟩, ⟨0xacd, 0xacd, 1⟩,
    ⟨0xb4d, 0xb4d, 1⟩, ⟨0xbcd, 0xbcd, 1⟩, ⟨0xc4d, 0xc4d, 1⟩, ⟨0xccd, 0xccd, 1⟩, ⟨0xd3b, 0xd3c, 1⟩,
    ⟨0xd4d, 0xd4d, 1⟩, ⟨0xdca, 0xdca, 1⟩, ⟨0xe3a, 0xe3a, 1⟩, ⟨0xeba, 0xeba, 1⟩, ⟨0xf84, 0xf84, 1⟩,
    ⟨0x1039, 0x103a, 1⟩, ⟨0x1714, 0x1715, 1⟩, ⟨0x1734, 0x1734, 1⟩, ⟨0x17d2, 0x17d2, 1⟩,
    ⟨0x1a60, 0x1a60, 1⟩, ⟨0x1b44, 0x1b44, 1⟩, ⟨0x1baa, 0x1bab, 1⟩, ⟨0x1bf2, 0x1bf3, 1⟩,
    ⟨0x2d7f, 0x2d7f, 1⟩, ⟨0xa806, 0xa806, 1⟩, ⟨0xa82c, 0xa82c, 1⟩, ⟨0xa8c4, 0xa8c4, 1⟩,
    ⟨0xa953, 0xa953, 1⟩, ⟨0xa9c0, 0xa9c0, 1⟩, ⟨0xaaf6, 0xaaf6, 1⟩, ⟨0xabed, 0xabed, 1⟩,
    ⟨0x10a3f, 0x10a3f, 1⟩, ⟨0x11046, 0x11046, 1⟩, ⟨0x11070, 0x11070, 1⟩, ⟨0x1107f, 0x1107f, 1⟩,
    ⟨0x110b9, 0x110b9, 1⟩, ⟨0x11133, 0x11134, 1⟩, ⟨0x111c0, 0x111c0, 1⟩, ⟨0x11235, 0x11235, 1⟩,
    ⟨0x112ea, 0x112ea, 1⟩, ⟨0x1134d, 0x1134d, 1⟩, ⟨0x11442, 0x11442, 1⟩, ⟨0x114c2, 0x114c2, 1⟩,
    ⟨0x115bf, 0x115bf, 1⟩, ⟨0x1163f, 0x1163f, 1⟩, ⟨0x116b6, 0x116b6, 1⟩, ⟨0x1172b, 0x1172b, 1⟩,
    ⟨0x11839, 0x11839, 1⟩, ⟨0x1193d, 0x1193e, 1⟩, ⟨0x119e0, 0x119e0, 1⟩, ⟨0x11a34, 0x11a34, 1⟩,
    ⟨0x11a47, 0x11a47, 1⟩, ⟨0x11a99, 0x11a99, 1⟩, ⟨0x11c3f, 0x11c3f, 1⟩, ⟨0x11d44, 0x11d45, 1⟩,
    ⟨0x11d97, 0x11d97, 1⟩]), (10, [⟨0x5b0, 0x5b0, 1⟩]), (11, [⟨0x5b1, 0x5b1, 1⟩]),
  (12, [⟨0x5b2, 0x5b2, 1⟩]), (13, [⟨0x5b3, 0x5b3, 1⟩]), (14, [⟨0x5b4, 0x5b4, 1⟩]),
  (15, [⟨0x5b5, 0x5b5, 1⟩]), (16, [⟨0x5b6, 0x5b6, 1⟩]), (17, [⟨0x5b7, 0x5b7, 1⟩]),
  (18, [⟨0x5b8, 0x5b8, 1⟩, ⟨0x5c7, 0x5c7, 1⟩]), (19, [⟨0x5b9, 0x5ba, 1⟩]),
  (20, [⟨0x5bb, 0x5bb, 1⟩]), (21, [⟨0x5bc, 0x5bc, 1⟩]), (22, [⟨0x5bd, 0x5bd, 1⟩]),
  (23, [⟨0x5bf, 0x5bf, 1⟩]), (24, [⟨0x5c1, 0x5c1, 1⟩]), (25, [⟨0x5c2, 0x5c2, 1⟩]),
  (26, [⟨0xfb1e, 0xfb1e, 1⟩]), (27, [⟨0x64b, 0x64b, 1⟩, ⟨0x8f0, 0x8f0, 1⟩]),
  (28, [⟨0x64c, 0x64c, 1⟩, ⟨0x8f1, 0x8f1, 1⟩]), (29, [⟨0x64d, 0x64d, 1⟩, ⟨0x8f2, 0x8f2, 1⟩]),
  (30, [⟨0x618, 0x618, 1⟩, ⟨0x64e, 0x64e, 1⟩]), (31, [⟨0x619, 0x619, 1⟩, ⟨0x64f, 0x64f, 1⟩]),
  (32, [⟨0x61a, 0x61a, 1⟩, ⟨0x650, 0x650, 1⟩]), (33, [⟨0x651, 0x651, 1⟩]),
  (34, [⟨0x652, 0x652, 1⟩]), (35, [⟨0x670, 0x670, 1⟩]), (36, [⟨0x711, 0x711, 1⟩]),
  (84, [⟨0xc55, 0xc55, 1⟩]), (91, [⟨0xc56, 0xc56, 1⟩]), (103, [⟨0xe38, 0xe39, 1⟩]),
  (107, [⟨0xe48, 0xe4b, 1⟩]), (118, [⟨0xeb8, 0xeb9, 1⟩]), (122, [⟨0xec8, 0xecb, 1⟩]),
  (129, [⟨0xf71, 0xf71, 1⟩]), (130, [⟨0xf72, 0xf72, 1⟩, ⟨0xf7a, 0xf7d, 1⟩, ⟨0xf80, 0xf80, 1⟩]),
  (132, [⟨0xf74, 0xf74, 1⟩]),
  (202, [⟨0x321, 0x322, 1⟩, ⟨0x327, 0x328, 1⟩, ⟨0x1dd0, 0x1dd0, 1⟩]),
  (214, [⟨0x1dce, 0x1dce, 1⟩]),
  (216, [⟨0x31b, 0x31b, 1⟩, ⟨0xf39, 0xf39, 1⟩, ⟨0x1d165, 0x1d166, 1⟩, ⟨0x1d16e, 0x1d172, 1⟩]),
  (218, [⟨0x1dfa, 0x1dfa, 1⟩, ⟨0x302a, 0x302a, 1⟩]),
  (220, [⟨0x316, 0x319, 1⟩, ⟨0x31c, 0x320, 1⟩, ⟨0x323, 0x326, 1⟩, ⟨0x329, 0x333, 1⟩,
    ⟨0x339, 0x33c, 1⟩, ⟨0x347, 0x349, 1⟩, ⟨0x34d, 0x34e, 1⟩, ⟨0x353, 0x356, 1⟩, ⟨0x359, 0x35a, 1⟩,
    ⟨0x591, 0x591, 1⟩, ⟨0x596, 0x596, 1⟩, ⟨0x59b, 0x59b, 1⟩, ⟨0x5a2, 0x5a7, 1⟩, ⟨0x5aa, 0x5aa, 1⟩,
    ⟨0x5c5, 0x5c5, 1⟩, ⟨0x655, 0x656, 1⟩, ⟨0x65c, 0x65c, 1⟩, ⟨0x65f, 0x65f, 1⟩, ⟨0x6e3, 0x6e3, 1⟩,
    ⟨0x6ea, 0x6ea, 1⟩, ⟨0x6ed, 0x6ed, 1⟩, ⟨0x731, 0x731, 1⟩, ⟨0x734, 0x734, 1⟩, ⟨0x737, 0x739, 1⟩,
    ⟨0x73b, 0x73c, 1⟩, ⟨0x73e, 0x73e, 1⟩, ⟨0x742, 0x748, 2⟩, ⟨0x7f2, 0x7f2, 1⟩, ⟨0x7fd, 0x7fd, 1⟩,
    ⟨0x859, 0x85b, 1⟩, ⟨0x899, 0x89b, 1⟩, ⟨0x8cf, 0x8d3, 1⟩, ⟨0x8e3, 0x8e3, 1⟩, ⟨0x8e6, 0x8e6, 1⟩,
    ⟨0x8e9, 0x8e9, 1⟩, ⟨0x8ed, 0x8ef, 1⟩, ⟨0x8f6, 0x8f6, 1⟩, ⟨0x8f9, 0x8fa, 1⟩, ⟨0x952, 0x952, 1⟩,
    ⟨0xf18, 0xf19, 1⟩, ⟨0xf35, 0xf35, 1⟩, ⟨0xf37, 0xf37, 1⟩, ⟨0xfc6, 0xfc6, 1⟩,
    ⟨0x108d, 0x108d, 1⟩, ⟨0x193b, 0x193b, 1⟩, ⟨0x1a18, 0x1a18, 1⟩, ⟨0x1a7f, 0x1a7f, 1⟩,
    ⟨0x1ab5, 0x1aba, 1⟩, ⟨0x1abd, 0x1abd, 1⟩, ⟨0x1abf, 0x1ac0, 1⟩, ⟨0x1ac3, 0x1ac4, 1⟩,
    ⟨0x1aca, 0x1aca, 1⟩, ⟨0x1b6c, 0x1b6c, 1⟩, ⟨0x1cd5, 0x1cd9, 1⟩, ⟨0x1cdc, 0x1cdf, 1⟩,
    ⟨0x1ced, 0x1ced, 1⟩, ⟨0x1dc2, 0x1dc2, 1⟩, ⟨0x1dca, 0x1dca, 1⟩, ⟨0x1dcf, 0x1dcf, 1⟩,
    ⟨0x1df9, 0x1df9, 1⟩, ⟨0x1dfd, 0x1dfd, 1⟩, ⟨0x1dff, 0x1dff, 1⟩, ⟨0x20e8, 0x20e8, 1⟩,
    ⟨0x20ec, 0x20ef, 1⟩, ⟨0xa92b, 0xa92d, 1⟩, ⟨0xaab4, 0xaab4, 1⟩, ⟨0xfe27, 0xfe2d, 1⟩,
    ⟨0x101fd, 0x101fd, 1⟩, ⟨0x102e0, 0x102e0, 1⟩, ⟨0x10a0d, 0x10a0d, 1⟩, ⟨0x10a3a, 0x10a3a, 1⟩,
    ⟨0x10ae6, 0x10ae6, 1⟩, ⟨0x10f46, 0x10f47, 1⟩, ⟨0x10f4b, 0x10f4b, 1⟩, ⟨0x10f4d, 0x10f50, 1⟩,
    ⟨0x10f83, 0x10f83, 1⟩, ⟨0x10f85, 0x10f85, 1⟩, ⟨0x1d17b, 0x1d182, 1⟩, ⟨0x1d18a, 0x1d18b, 1⟩,
    ⟨0x1e8d0, 0x1e8d6, 1⟩]),
  (222, [⟨0x59a, 0x59a, 1⟩, ⟨0x5ad, 0x5ad, 1⟩, ⟨0x1939, 0x1939, 1⟩, ⟨0x302d, 0x302d, 1⟩]),
  (224, [⟨0x302e, 0x302f, 1⟩]), (226, [⟨0x1d16d, 0x1d16d, 1⟩]),
  (228, [⟨0x5ae, 0x5ae, 1⟩, ⟨0x18a9, 0x18a9, 1⟩, ⟨0x1df7, 0x1df8, 1⟩, ⟨0x302b, 0x302b, 1⟩]),
  (230, [⟨0x300, 0x314, 1⟩, ⟨0x33d, 0x344, 1⟩, ⟨0x346, 0x346, 1⟩, ⟨0x34a, 0x34c, 1⟩,
    ⟨0x350, 0x352, 1⟩, ⟨0x357, 0x357, 1⟩, ⟨0x35b, 0x35b, 1⟩, ⟨0x363, 0x36f, 1⟩, ⟨0x483, 0x487, 1⟩,
    ⟨0x592, 0x595, 1⟩, ⟨0x597, 0x599, 1⟩, ⟨0x59c, 0x5a1, 1⟩, ⟨0x5a8, 0x5a9, 1⟩, ⟨0x5ab, 0x5ac, 1⟩,
    ⟨0x5af, 0x5af, 1⟩, ⟨0x5c4, 0x5c4, 1⟩, ⟨0x610, 0x617, 1⟩, ⟨0x653, 0x654, 1⟩, ⟨0x657, 0x65b, 1⟩,
    ⟨0x65d, 0x65e, 1⟩, ⟨0x6d6, 0x6dc, 1⟩, ⟨0x6df, 0x6e2, 1⟩, ⟨0x6e4, 0x6e4, 1⟩, ⟨0x6e7, 0x6e8, 1⟩,
    ⟨0x6eb, 0x6ec, 1⟩, ⟨0x730, 0x730, 1⟩, ⟨0x732, 0x733, 1⟩, ⟨0x735, 0x736, 1⟩, ⟨0x73a, 0x73a, 1⟩,
    ⟨0x73d, 0x73d, 1⟩, ⟨0x73f, 0x741, 1⟩, ⟨0x743, 0x749, 2⟩, ⟨0x74a, 0x74a, 1⟩, ⟨0x7eb, 0x7f1, 1⟩,
    ⟨0x7f3, 0x7f3, 1⟩, ⟨0x816, 0x819, 1⟩, ⟨0x81b, 0x823, 1⟩, ⟨0x825, 0x827, 1⟩, ⟨0x829, 0x82d, 1⟩,
    ⟨0x898, 0x898, 1⟩, ⟨0x89c, 0x89f, 1⟩, ⟨0x8ca, 0x8ce, 1⟩, ⟨0x8d4, 0x8e1, 1⟩, ⟨0x8e4, 0x8e5, 1⟩,
    ⟨0x8e7, 0x8e8, 1⟩, ⟨0x8ea, 0x8ec, 1⟩, ⟨0x8f3, 0x8f5, 1⟩, ⟨0x8f7, 0x8f8, 1⟩, ⟨0x8fb, 0x8ff, 1⟩,
    ⟨0x951, 0x951, 1⟩, ⟨0x953, 0x954, 1⟩, ⟨0x9fe, 0x9fe, 1⟩, ⟨0xf82, 0xf83, 1⟩, ⟨0xf86, 0xf87, 1⟩,
    ⟨0x135d, 0x135f, 1⟩, ⟨0x17dd, 0x17dd, 1⟩, ⟨0x193a, 0x193a, 1⟩, ⟨0x1a17, 0x1a17, 1⟩,
    ⟨0x1a75, 0x1a7c, 1⟩, ⟨0x1ab0, 0x1ab4, 1⟩, ⟨0x1abb, 0x1abc, 1⟩, ⟨0x1ac1, 0x1ac2, 1⟩,
    ⟨0x1ac5, 0x1ac9, 1⟩, ⟨0x1acb, 0x1ace, 1⟩, ⟨0x1b6b, 0x1b6b, 1⟩, ⟨0x1b6d, 0x1b73, 1⟩,
    ⟨0x1cd0, 0x1cd2, 1⟩, ⟨0x1cda, 0x1cdb, 1⟩, ⟨0x1ce0, 0x1ce0, 1⟩, ⟨0x1cf4, 0x1cf4, 1⟩,
    ⟨0x1cf8, 0x1cf9, 1⟩, ⟨0x1dc0, 0x1dc1, 1⟩, ⟨0x1dc3, 0x1dc9, 1⟩, ⟨0x1dcb, 0x1dcc, 1⟩,
    ⟨0x1dd1, 0x1df5, 1⟩, ⟨0x1dfb, 0x1dfb, 1⟩, ⟨0x1dfe, 0x1dfe, 1⟩, ⟨0x20d0, 0x20d1, 1⟩,
    ⟨0x20d4, 0x20d7, 1⟩, ⟨0x20db, 0x20dc, 1⟩, ⟨0x20e1, 0x20e1, 1⟩, ⟨0x20e7, 0x20e7, 1⟩,
    ⟨0x20e9, 0x20e9, 1⟩, ⟨0x20f0, 0x20f0, 1⟩, ⟨0x2cef, 0x2cf1, 1⟩, ⟨0x2de0, 0x2dff, 1⟩,
    ⟨0xa66f, 0xa66f, 1⟩, ⟨0xa674, 0xa67d, 1⟩, ⟨0xa69e, 0xa69f, 1⟩, ⟨0xa6f0, 0xa6f1, 1⟩,
    ⟨0xa8e0, 0xa8f1, 1⟩, ⟨0xaab0, 0xaab0, 1⟩, ⟨0xaab2, 0xaab3, 1⟩, ⟨0xaab7, 0xaab8, 1⟩,
    ⟨0xaabe, 0xaabf, 1⟩, ⟨0xaac1, 0xaac1, 1⟩, ⟨0xfe20, 0xfe26, 1⟩, ⟨0xfe2e, 0xfe2f, 1⟩,
    ⟨0x10376, 0x1037a, 1⟩, ⟨0x10a0f, 0x10a0f, 1⟩, ⟨0x10a38, 0x10a38, 1⟩, ⟨0x10ae5, 0x10ae5, 1⟩,
    ⟨0x10d24, 0x10d27, 1⟩, ⟨0x10eab, 0x10eac, 1⟩, ⟨0x10f48, 0x10f4a, 1⟩, ⟨0x10f4c, 0x10f4c, 1⟩,
    ⟨0x10f82, 0x10f82, 1⟩, ⟨0x10f84, 0x10f84, 1⟩, ⟨0x11100, 0x11102, 1⟩, ⟨0x11366, 0x1136c, 1⟩,
    ⟨0x11370, 0x11374, 1⟩, ⟨0x1145e, 0x1145e, 1⟩, ⟨0x16b30, 0x16b36, 1⟩, ⟨0x1d185, 0x1d189, 1⟩,
    ⟨0x1d1aa, 0x1d1ad, 1⟩, ⟨0x1d242, 0x1d244, 1⟩, ⟨0x1e000, 0x1e006, 1⟩, ⟨0x1e008, 0x1e018, 1⟩,
    ⟨0x1e01b, 0x1e021, 1⟩, ⟨0x1e023, 0x1e024, 1⟩, ⟨0x1e026, 0x1e02a, 1⟩, ⟨0x1e130, 0x1e136, 1⟩,
    ⟨0x1e2ae, 0x1e2ae, 1⟩, ⟨0x1e2ec, 0x1e2ef, 1⟩, ⟨0x1e944, 0x1e949, 1⟩]),
  (232, [⟨0x315, 0x315, 1⟩, ⟨0x31a, 0x31a, 1⟩, ⟨0x358, 0x358, 1⟩, ⟨0x1df6, 0x1df6, 1⟩,
    ⟨0x302c, 0x302c, 1⟩]),
  (233, [⟨0x35c, 0x35c, 1⟩, ⟨0x35f, 0x35f, 1⟩, ⟨0x362, 0x362, 1⟩, ⟨0x1dfc, 0x1dfc, 1⟩]),
  (234, [⟨0x35d, 0x35e, 1⟩, ⟨0x360, 0x361, 1⟩, ⟨0x1dcd, 0x1dcd, 1⟩]),
  (240, [⟨0x345, 0x345, 1⟩])]

/-- The class of a mark. Every other character has the class 0. -/
def markClass (c : Char) : Nat :=
  if c.toNat < 0x300 then 0
  else ((markClassRuns.find? fun (_, runs) => runs.any (·.contains c)).map (·.1)).getD 0

end RowSchema.Text
