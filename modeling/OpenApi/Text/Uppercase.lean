/-
  OpenApi.Text.Uppercase — the full upper-case form of a character.

  Most characters have an upper-case form of one character, some of two or three (`ß` gives `SS`).
  The tables hold Unicode 17: shifts of whole ranges, shifts of every second character of a range,
  and the characters that become several.
-/

namespace OpenApi.Text

/-! ## §1. Tables. -/

/-- Ranges `(first, last, shift)` in which every character moves by `shift`. -/
def upperShifts : List (Nat × Nat × Int) :=
  [(97, 122, -32), (181, 181, 743), (224, 246, -32), (248, 254, -32), (255, 255, 121),
   (305, 305, -232), (383, 383, -300), (384, 384, 195), (392, 392, -1), (396, 396, -1),
   (402, 402, -1), (405, 405, 97), (409, 409, -1), (410, 410, 163), (411, 411, 42561),
   (414, 414, 130), (424, 424, -1), (429, 429, -1), (432, 432, -1), (441, 441, -1),
   (445, 445, -1), (447, 447, 56), (453, 453, -1), (454, 454, -2), (456, 456, -1),
   (457, 457, -2), (459, 459, -1), (460, 460, -2), (477, 477, -79), (498, 498, -1),
   (499, 499, -2), (501, 501, -1), (572, 572, -1), (575, 576, 10815), (578, 578, -1),
   (592, 592, 10783), (593, 593, 10780), (594, 594, 10782), (595, 595, -210), (596, 596, -206),
   (598, 599, -205), (601, 601, -202), (603, 603, -203), (604, 604, 42319), (608, 608, -205),
   (609, 609, 42315), (611, 611, -207), (612, 612, 42343), (613, 613, 42280), (614, 614, 42308),
   (616, 616, -209), (617, 617, -211), (618, 618, 42308), (619, 619, 10743), (620, 620, 42305),
   (623, 623, -211), (625, 625, 10749), (626, 626, -213), (629, 629, -214), (637, 637, 10727),
   (640, 640, -218), (642, 642, 42307), (643, 643, -218), (647, 647, 42282), (648, 648, -218),
   (649, 649, -69), (650, 651, -217), (652, 652, -71), (658, 658, -219), (669, 669, 42261),
   (670, 670, 42258), (837, 837, 84), (887, 887, -1), (891, 893, 130), (940, 940, -38),
   (941, 943, -37), (945, 961, -32), (962, 962, -31), (963, 971, -32), (972, 972, -64),
   (973, 974, -63), (976, 976, -62), (977, 977, -57), (981, 981, -47), (982, 982, -54),
   (983, 983, -8), (1008, 1008, -86), (1009, 1009, -80), (1010, 1010, 7), (1011, 1011, -116),
   (1013, 1013, -96), (1016, 1016, -1), (1019, 1019, -1), (1072, 1103, -32), (1104, 1119, -80),
   (1231, 1231, -15), (1377, 1414, -48), (4304, 4346, 3008), (4349, 4351, 3008),
   (5112, 5117, -8), (7296, 7296, -6254), (7297, 7297, -6253), (7298, 7298, -6244),
   (7299, 7300, -6242), (7301, 7301, -6243), (7302, 7302, -6236), (7303, 7303, -6181),
   (7304, 7304, 35266), (7306, 7306, -1), (7545, 7545, 35332), (7549, 7549, 3814),
   (7566, 7566, 35384), (7835, 7835, -59), (7936, 7943, 8), (7952, 7957, 8), (7968, 7975, 8),
   (7984, 7991, 8), (8000, 8005, 8), (8032, 8039, 8), (8048, 8049, 74), (8050, 8053, 86),
   (8054, 8055, 100), (8056, 8057, 128), (8058, 8059, 112), (8060, 8061, 126), (8112, 8113, 8),
   (8126, 8126, -7205), (8144, 8145, 8), (8160, 8161, 8), (8165, 8165, 7), (8526, 8526, -28),
   (8560, 8575, -16), (8580, 8580, -1), (9424, 9449, -26), (11312, 11359, -48),
   (11361, 11361, -1), (11365, 11365, -10795), (11366, 11366, -10792), (11379, 11379, -1),
   (11382, 11382, -1), (11507, 11507, -1), (11520, 11557, -7264), (11559, 11559, -7264),
   (11565, 11565, -7264), (42892, 42892, -1), (42900, 42900, 48), (42998, 42998, -1),
   (43859, 43859, -928), (43888, 43967, -38864), (65345, 65370, -32), (66600, 66639, -40),
   (66776, 66811, -40), (66967, 66977, -39), (66979, 66993, -39), (66995, 67001, -39),
   (67003, 67004, -39), (68800, 68850, -64), (68976, 68997, -32), (71872, 71903, -32),
   (93792, 93823, -32), (93883, 93907, -27), (125218, 125251, -34)]

/-- Ranges `(first, last, shift)` in which `first` and every second character after it move. -/
def upperAlternating : List (Nat × Nat × Int) :=
  [(257, 303, -1), (307, 311, -1), (314, 328, -1), (331, 375, -1), (378, 382, -1),
   (387, 389, -1), (417, 421, -1), (436, 438, -1), (462, 476, -1), (479, 495, -1),
   (505, 543, -1), (547, 563, -1), (583, 591, -1), (881, 883, -1), (985, 1007, -1),
   (1121, 1153, -1), (1163, 1215, -1), (1218, 1230, -1), (1233, 1327, -1), (7681, 7829, -1),
   (7841, 7935, -1), (8017, 8023, 8), (11368, 11372, -1), (11393, 11491, -1), (11500, 11502, -1),
   (42561, 42605, -1), (42625, 42651, -1), (42787, 42799, -1), (42803, 42863, -1),
   (42874, 42876, -1), (42879, 42887, -1), (42897, 42899, -1), (42903, 42921, -1),
   (42933, 42947, -1), (42952, 42954, -1), (42957, 42971, -1)]

/-- Characters whose upper-case form is several characters. -/
def upperExpanding : List (Nat × List Nat) :=
  [(223, [83, 83]), (329, [700, 78]), (496, [74, 780]), (912, [921, 776, 769]),
   (944, [933, 776, 769]), (1415, [1333, 1362]), (7830, [72, 817]), (7831, [84, 776]),
   (7832, [87, 778]), (7833, [89, 778]), (7834, [65, 702]), (8016, [933, 787]),
   (8018, [933, 787, 768]), (8020, [933, 787, 769]), (8022, [933, 787, 834]),
   (8064, [7944, 921]), (8065, [7945, 921]), (8066, [7946, 921]), (8067, [7947, 921]),
   (8068, [7948, 921]), (8069, [7949, 921]), (8070, [7950, 921]), (8071, [7951, 921]),
   (8072, [7944, 921]), (8073, [7945, 921]), (8074, [7946, 921]), (8075, [7947, 921]),
   (8076, [7948, 921]), (8077, [7949, 921]), (8078, [7950, 921]), (8079, [7951, 921]),
   (8080, [7976, 921]), (8081, [7977, 921]), (8082, [7978, 921]), (8083, [7979, 921]),
   (8084, [7980, 921]), (8085, [7981, 921]), (8086, [7982, 921]), (8087, [7983, 921]),
   (8088, [7976, 921]), (8089, [7977, 921]), (8090, [7978, 921]), (8091, [7979, 921]),
   (8092, [7980, 921]), (8093, [7981, 921]), (8094, [7982, 921]), (8095, [7983, 921]),
   (8096, [8040, 921]), (8097, [8041, 921]), (8098, [8042, 921]), (8099, [8043, 921]),
   (8100, [8044, 921]), (8101, [8045, 921]), (8102, [8046, 921]), (8103, [8047, 921]),
   (8104, [8040, 921]), (8105, [8041, 921]), (8106, [8042, 921]), (8107, [8043, 921]),
   (8108, [8044, 921]), (8109, [8045, 921]), (8110, [8046, 921]), (8111, [8047, 921]),
   (8114, [8122, 921]), (8115, [913, 921]), (8116, [902, 921]), (8118, [913, 834]),
   (8119, [913, 834, 921]), (8124, [913, 921]), (8130, [8138, 921]), (8131, [919, 921]),
   (8132, [905, 921]), (8134, [919, 834]), (8135, [919, 834, 921]), (8140, [919, 921]),
   (8146, [921, 776, 768]), (8147, [921, 776, 769]), (8150, [921, 834]), (8151, [921, 776, 834]),
   (8162, [933, 776, 768]), (8163, [933, 776, 769]), (8164, [929, 787]), (8166, [933, 834]),
   (8167, [933, 776, 834]), (8178, [8186, 921]), (8179, [937, 921]), (8180, [911, 921]),
   (8182, [937, 834]), (8183, [937, 834, 921]), (8188, [937, 921]), (64256, [70, 70]),
   (64257, [70, 73]), (64258, [70, 76]), (64259, [70, 70, 73]), (64260, [70, 70, 76]),
   (64261, [83, 84]), (64262, [83, 84]), (64275, [1348, 1350]), (64276, [1348, 1333]),
   (64277, [1348, 1339]), (64278, [1358, 1350]), (64279, [1348, 1341])]

/-! ## §2. Looking a character up. -/

/-- The character `shift` places further. -/
def shifted (c : Char) (shift : Int) : Char := Char.ofNat ((c.toNat : Int) + shift).toNat

/-- The upper-case form of one character. -/
def upperForm (c : Char) : List Char :=
  let n := c.toNat
  if n < 128 then [c.toUpper]
  else
    match upperExpanding.find? (fun e => e.1 = n) with
    | some e => e.2.map Char.ofNat
    | none =>
      match upperShifts.find? (fun r => r.1 ≤ n && n ≤ r.2.1) with
      | some r => [shifted c r.2.2]
      | none =>
        match upperAlternating.find? (fun r => r.1 ≤ n && n ≤ r.2.1 && (n - r.1) % 2 = 0) with
        | some r => [shifted c r.2.2]
        | none => [c]

end OpenApi.Text
