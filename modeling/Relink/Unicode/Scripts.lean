import Relink.Unicode.Property

/-!
# Writing systems

The characters of each writing system, with its names. What belongs to several of them is common or inherited.

* `scripts` — the writing systems.
-/

namespace Relink.Unicode

/-- The writing systems. -/
def scripts : List Property := [
  ⟨["Adlm", "Adlam"], "125184 76 4 10 4 2"⟩,
  ⟨["Aghb", "Caucasian_Albanian"], "66864 52 11 1"⟩,
  ⟨["Ahom"], "71424 27 2 15 4 23"⟩,
  ⟨["Arab", "Arabic"],
    "1536 5 1 6 1 14 1 3 1 32 1 10 11 26 1 108 1 34 80 48 240 34 5 75 1 29 62032 494 2 144 32 16
    112 5 1 135 3939 31 67 6 8 9 33 6 57088 4 1 27 1 2 1 1 2 1 1 10 1 4 1 1 1 1 6 1 4 1 1 1 1 1
    1 3 1 2 1 1 2 1 1 1 1 1 1 1 1 1 1 2 1 1 2 4 1 7 1 4 1 4 1 1 1 10 1 17 5 3 1 5 1 17 52 2"⟩,
  ⟨["Armi", "Imperial_Aramaic"], "67648 22 1 9"⟩,
  ⟨["Armn", "Armenian"], "1329 38 2 50 2 3 62851 5"⟩,
  ⟨["Avst", "Avestan"], "68352 54 3 7"⟩,
  ⟨["Bali", "Balinese"], "6912 77 1 50"⟩,
  ⟨["Bamu", "Bamum"], "42656 88 49416 569"⟩,
  ⟨["Bass", "Bassa_Vah"], "92880 30 2 6"⟩,
  ⟨["Batk", "Batak"], "7104 52 8 4"⟩,
  ⟨["Beng", "Bengali"], "2432 4 1 8 2 2 2 22 1 7 1 1 3 4 2 9 2 2 2 4 8 1 4 2 1 5 2 25"⟩,
  ⟨["Berf", "Beria_Erfe"], "93856 25 2 25"⟩,
  ⟨["Bhks", "Bhaiksuki"], "72704 9 1 45 1 14 10 29"⟩,
  ⟨["Bopo", "Bopomofo"], "746 2 11801 43 112 32"⟩,
  ⟨["Brah", "Brahmi"], "69632 78 4 36 9 1"⟩,
  ⟨["Brai", "Braille"], "10240 256"⟩,
  ⟨["Bugi", "Buginese"], "6656 28 2 2"⟩,
  ⟨["Buhd", "Buhid"], "5952 20"⟩,
  ⟨["Cakm", "Chakma"], "69888 53 1 18"⟩,
  ⟨["Cans", "Canadian_Aboriginal"], "5120 640 560 70 65978 16"⟩,
  ⟨["Cari", "Carian"], "66208 49"⟩,
  ⟨["Cham"], "43520 55 9 14 2 10 2 4"⟩,
  ⟨["Cher", "Cherokee"], "5024 86 2 6 38770 80"⟩,
  ⟨["Chrs", "Chorasmian"], "69552 28"⟩,
  ⟨["Copt", "Coptic", "Qaac"], "994 14 10384 116 5 7"⟩,
  ⟨["Cpmn", "Cypro_Minoan"], "77712 99"⟩,
  ⟨["Cprt", "Cypriot"], "67584 6 2 1 1 44 1 2 3 1 2 1"⟩,
  ⟨["Cyrl", "Cyrillic"], "1024 133 2 169 5968 11 160 1 76 1 4199 32 30784 96 22414 2 57856 62 33 1"⟩,
  ⟨["Deva", "Devanagari"], "2304 81 4 15 2 26 40800 32 29184 10"⟩,
  ⟨["Diak", "Dives_Akuru"], "71936 7 2 1 2 8 1 2 1 30 1 2 2 12 9 10"⟩,
  ⟨["Dogr", "Dogra"], "71680 60"⟩,
  ⟨["Dsrt", "Deseret"], "66560 80"⟩,
  ⟨["Dupl", "Duployan"], "113664 107 5 13 3 9 7 10 2 4"⟩,
  ⟨["Egyp", "Egyptian_Hieroglyphs"], "77824 1110 10 3995"⟩,
  ⟨["Elba", "Elbasan"], "66816 40"⟩,
  ⟨["Elym", "Elymaic"], "69600 23"⟩,
  ⟨["Ethi", "Ethiopic"],
    "4608 73 1 4 2 7 1 1 1 4 2 41 1 4 2 33 1 4 2 7 1 1 1 4 2 15 1 57 1 4 2 67 2 32 3 26 6630 23
    9 7 1 7 1 7 1 7 1 7 1 7 1 7 1 7 32034 6 2 6 2 6 9 7 1 7 81073 7 1 4 1 2 1 15"⟩,
  ⟨["Gara", "Garay"], "68928 38 3 29 8 2"⟩,
  ⟨["Geor", "Georgian"], "4256 38 1 1 5 1 2 43 1 4 2960 43 2 3 4160 38 1 1 5 1"⟩,
  ⟨["Glag", "Glagolitic"], "11264 96 111520 7 1 17 2 7 1 2 1 5"⟩,
  ⟨["Gong", "Gunjala_Gondi"], "73056 6 1 2 1 37 1 2 1 6 7 10"⟩,
  ⟨["Gonm", "Masaram_Gondi"], "72960 7 1 2 1 44 3 1 1 2 1 9 8 10"⟩,
  ⟨["Goth", "Gothic"], "66352 27"⟩,
  ⟨["Gran", "Grantha"], "70400 4 1 8 2 2 2 22 1 7 1 2 1 5 2 9 2 2 2 3 2 1 6 1 5 7 2 7 3 5"⟩,
  ⟨["Grek", "Greek"],
    "880 4 1 3 2 4 1 1 4 1 1 1 1 3 1 1 1 20 1 63 14 16 6438 5 50 5 4 5 84 1 320 22 2 6 2 38 2 6
    2 8 1 1 1 1 1 1 1 31 2 53 1 15 1 14 2 6 1 19 2 3 1 9 295 1 35390 1 21978 79 17 1 53343 70"⟩,
  ⟨["Gujr", "Gujarati"], "2689 3 1 9 1 3 1 22 1 7 1 2 1 5 2 10 1 3 1 3 2 1 15 4 2 12 7 7"⟩,
  ⟨["Gukh", "Gurung_Khema"], "90368 58"⟩,
  ⟨["Guru", "Gurmukhi"], "2561 3 1 6 4 2 2 22 1 7 1 2 1 2 1 2 2 1 1 5 4 2 2 3 3 1 7 4 1 1 7 17"⟩,
  ⟨["Hang", "Hangul"],
    "4352 256 7726 2 257 94 113 31 65 31 30433 29 643 11172 12 23 4 49 10148 31 3 6 2 6 2 6 2 3"⟩,
  ⟨["Hani", "Han"],
    "11904 26 1 89 12 214 47 1 1 1 25 9 14 4 964 6592 64 20992 22784 366 2 106 29960 2 12 7
    36873 42720 32 4382 2 5774 2 7473 15 622 2466 542 1506 4939 5 8490"⟩,
  ⟨["Hano", "Hanunoo"], "5920 21"⟩,
  ⟨["Hatr", "Hatran"], "67808 19 1 2 5 5"⟩,
  ⟨["Hebr", "Hebrew"], "1425 55 8 27 4 6 62760 26 1 5 1 1 1 2 1 2 1 10"⟩,
  ⟨["Hira", "Hiragana"], "12353 86 6 3 98145 287 18 1 29 3 16557 1"⟩,
  ⟨["Hluw", "Anatolian_Hieroglyphs"], "82944 583"⟩,
  ⟨["Hmng", "Pahawh_Hmong"], "92928 70 10 10 1 7 1 21 5 19"⟩,
  ⟨["Hmnp", "Nyiakeng_Puachue_Hmong"], "123136 45 3 14 2 10 4 2"⟩,
  ⟨["Hung", "Old_Hungarian"], "68736 51 13 51 7 6"⟩,
  ⟨["Ital", "Old_Italic"], "66304 36 9 3"⟩,
  ⟨["Java", "Javanese"], "43392 78 2 10 4 2"⟩,
  ⟨["Kali", "Kayah_Li"], "43264 46 1 1"⟩,
  ⟨["Kana", "Katakana"],
    "12449 90 2 3 240 16 208 47 1 88 52238 10 1 45 45138 4 1 7 1 2 1 1 287 3 50 1 14 4"⟩,
  ⟨["Kawi"], "73472 17 1 41 3 29"⟩,
  ⟨["Khar", "Kharoshthi"], "68096 4 1 2 5 8 1 3 1 29 2 3 4 10 7 9"⟩,
  ⟨["Khmr", "Khmer"], "6016 94 2 10 6 10 486 32"⟩,
  ⟨["Khoj", "Khojki"], "70144 18 1 47"⟩,
  ⟨["Kits", "Khitan_Small_Script"], "94180 1 6939 470 41 1"⟩,
  ⟨["Knda", "Kannada"], "3200 13 1 3 1 23 1 10 1 5 2 9 1 3 1 4 7 2 5 3 1 4 2 10 1 3"⟩,
  ⟨["Krai", "Kirat_Rai"], "93504 58"⟩,
  ⟨["Kthi", "Kaithi"], "69760 67 10 1"⟩,
  ⟨["Lana", "Tai_Tham"], "6688 63 1 29 2 11 6 10 6 14"⟩,
  ⟨["Laoo", "Lao"], "3713 2 1 1 1 5 1 24 1 1 1 23 2 5 1 1 1 7 1 10 2 4"⟩,
  ⟨["Latn", "Latin"],
    "65 26 6 26 47 1 15 1 5 23 1 31 1 449 39 5 6683 38 6 49 5 4 5 13 1 70 65 256 369 1 13 1 16
    13 141 2 6 1 27 1 17 41 2775 32 31394 102 3 82 20 15 816 43 1 9 1 4 20374 7 1050 26 6 26
    2085 6 1 42 1 9 55109 31 6 6"⟩,
  ⟨["Lepc", "Lepcha"], "7168 56 3 15 3 3"⟩,
  ⟨["Limb", "Limbu"], "6400 31 1 12 4 12 4 1 3 12"⟩,
  ⟨["Lina", "Linear_A"], "67072 311 9 22 10 8"⟩,
  ⟨["Linb", "Linear_B"], "65536 12 1 26 1 19 1 2 1 15 2 14 34 123"⟩,
  ⟨["Lisu"], "42192 48 31408 1"⟩,
  ⟨["Lyci", "Lycian"], "66176 29"⟩,
  ⟨["Lydi", "Lydian"], "67872 26 5 1"⟩,
  ⟨["Mahj", "Mahajani"], "69968 39"⟩,
  ⟨["Maka", "Makasar"], "73440 25"⟩,
  ⟨["Mand", "Mandaic"], "2112 28 2 1"⟩,
  ⟨["Mani", "Manichaean"], "68288 39 4 12"⟩,
  ⟨["Marc", "Marchen"], "72816 32 2 22 1 14"⟩,
  ⟨["Medf", "Medefaidrin"], "93760 91"⟩,
  ⟨["Mend", "Mende_Kikakui"], "124928 197 2 16"⟩,
  ⟨["Merc", "Meroitic_Cursive"], "68000 24 4 20 2 46"⟩,
  ⟨["Mero", "Meroitic_Hieroglyphs"], "67968 32"⟩,
  ⟨["Mlym", "Malayalam"], "3328 13 1 3 1 51 1 3 1 6 4 16 2 26"⟩,
  ⟨["Modi"], "71168 69 11 10"⟩,
  ⟨["Mong", "Mongolian"], "6144 2 2 1 1 20 6 89 7 43 64949 13"⟩,
  ⟨["Mroo", "Mro"], "92736 31 1 10 4 2"⟩,
  ⟨["Mtei", "Meetei_Mayek"], "43744 23 201 46 2 10"⟩,
  ⟨["Mult", "Multani"], "70272 7 1 1 1 4 1 15 1 11"⟩,
  ⟨["Mymr", "Myanmar"], "4096 160 39232 31 97 32 27728 20"⟩,
  ⟨["Nagm", "Nag_Mundari"], "124112 42"⟩,
  ⟨["Nand", "Nandinagari"], "72096 8 2 46 2 11"⟩,
  ⟨["Narb", "Old_North_Arabian"], "68224 32"⟩,
  ⟨["Nbat", "Nabataean"], "67712 31 8 9"⟩,
  ⟨["Newa"], "70656 92 1 5"⟩,
  ⟨["Nkoo", "Nko"], "1984 59 2 3"⟩,
  ⟨["Nshu", "Nushu"], "94177 1 16782 396"⟩,
  ⟨["Ogam", "Ogham"], "5760 29"⟩,
  ⟨["Olck", "Ol_Chiki"], "7248 48"⟩,
  ⟨["Onao", "Ol_Onal"], "124368 43 4 1"⟩,
  ⟨["Orkh", "Old_Turkic"], "68608 73"⟩,
  ⟨["Orya", "Oriya"], "2817 3 1 8 2 2 2 22 1 7 1 2 1 5 2 9 2 2 2 3 7 3 4 2 1 5 2 18"⟩,
  ⟨["Osge", "Osage"], "66736 36 4 36"⟩,
  ⟨["Osma", "Osmanya"], "66688 30 2 10"⟩,
  ⟨["Ougr", "Old_Uyghur"], "69488 26"⟩,
  ⟨["Palm", "Palmyrene"], "67680 32"⟩,
  ⟨["Pauc", "Pau_Cin_Hau"], "72384 57"⟩,
  ⟨["Perm", "Old_Permic"], "66384 43"⟩,
  ⟨["Phag", "Phags_Pa"], "43072 56"⟩,
  ⟨["Phli", "Inscriptional_Pahlavi"], "68448 19 5 8"⟩,
  ⟨["Phlp", "Psalter_Pahlavi"], "68480 18 7 4 12 7"⟩,
  ⟨["Phnx", "Phoenician"], "67840 28 3 1"⟩,
  ⟨["Plrd", "Miao"], "93952 75 4 57 7 17"⟩,
  ⟨["Prti", "Inscriptional_Parthian"], "68416 22 2 8"⟩,
  ⟨["Rjng", "Rejang"], "43312 36 11 1"⟩,
  ⟨["Rohg", "Hanifi_Rohingya"], "68864 40 8 10"⟩,
  ⟨["Runr", "Runic"], "5792 75 3 11"⟩,
  ⟨["Samr", "Samaritan"], "2048 46 2 15"⟩,
  ⟨["Sarb", "Old_South_Arabian"], "68192 32"⟩,
  ⟨["Saur", "Saurashtra"], "43136 70 8 12"⟩,
  ⟨["Sgnw", "SignWriting"], "120832 652 15 5 1 15"⟩,
  ⟨["Shaw", "Shavian"], "66640 48"⟩,
  ⟨["Shrd", "Sharada"], "70016 96 2432 8"⟩,
  ⟨["Sidd", "Siddham"], "71040 54 2 38"⟩,
  ⟨["Sidt", "Sidetic"], "67904 26"⟩,
  ⟨["Sind", "Khudawadi"], "70320 59 5 10"⟩,
  ⟨["Sinh", "Sinhala"], "3457 3 1 18 3 24 1 9 1 1 2 7 3 1 4 6 1 1 1 8 6 10 2 3 66540 20"⟩,
  ⟨["Sogd", "Sogdian"], "69424 42"⟩,
  ⟨["Sogo", "Old_Sogdian"], "69376 40"⟩,
  ⟨["Sora", "Sora_Sompeng"], "69840 25 7 10"⟩,
  ⟨["Soyo", "Soyombo"], "72272 83"⟩,
  ⟨["Sund", "Sundanese"], "7040 64 256 8"⟩,
  ⟨["Sunu", "Sunuwar"], "72640 34 14 10"⟩,
  ⟨["Sylo", "Syloti_Nagri"], "43008 45"⟩,
  ⟨["Syrc", "Syriac"], "1792 14 1 60 2 3 272 11"⟩,
  ⟨["Tagb", "Tagbanwa"], "5984 13 1 3 1 2"⟩,
  ⟨["Takr", "Takri"], "71296 58 6 10"⟩,
  ⟨["Tale", "Tai_Le"], "6480 30 2 5"⟩,
  ⟨["Talu", "New_Tai_Lue"], "6528 44 4 26 6 11 3 2"⟩,
  ⟨["Taml", "Tamil"],
    "2946 2 1 6 3 3 1 4 3 2 1 1 1 2 3 2 3 3 3 12 4 5 3 3 1 4 2 1 6 1 14 21 70597 50 13 1"⟩,
  ⟨["Tang", "Tangut"], "94176 1 31 6912 512 31 97 115"⟩,
  ⟨["Tavt", "Tai_Viet"], "43648 67 24 5"⟩,
  ⟨["Tayo", "Tai_Yo"], "124608 31 1 22 8 2"⟩,
  ⟨["Telu", "Telugu"], "3072 13 1 3 1 23 1 16 2 9 1 3 1 4 7 2 1 3 1 2 2 4 2 10 7 9"⟩,
  ⟨["Tfng", "Tifinagh"], "11568 56 7 2 14 1"⟩,
  ⟨["Tglg", "Tagalog"], "5888 22 9 1"⟩,
  ⟨["Thaa", "Thaana"], "1920 50"⟩,
  ⟨["Thai"], "3585 58 5 28"⟩,
  ⟨["Tibt", "Tibetan"], "3840 72 1 36 4 39 1 36 1 15 1 7 4 2"⟩,
  ⟨["Tirh", "Tirhuta"], "70784 72 8 10"⟩,
  ⟨["Tnsa", "Tangsa"], "92784 79 1 10"⟩,
  ⟨["Todr", "Todhri"], "67008 52"⟩,
  ⟨["Tols", "Tolong_Siki"], "73136 44 4 10"⟩,
  ⟨["Toto"], "123536 31"⟩,
  ⟨["Tutg", "Tulu_Tigalari"], "70528 10 1 1 2 1 1 38 1 10 1 1 2 1 1 4 1 10 1 2 8 2"⟩,
  ⟨["Ugar", "Ugaritic"], "66432 30 1 1"⟩,
  ⟨["Vaii", "Vai"], "42240 300"⟩,
  ⟨["Vith", "Vithkuqi"], "66928 11 1 15 1 7 1 2 1 11 1 15 1 7 1 2"⟩,
  ⟨["Wara", "Warang_Citi"], "71840 83 12 1"⟩,
  ⟨["Wcho", "Wancho"], "123584 58 5 1"⟩,
  ⟨["Xpeo", "Old_Persian"], "66464 36 4 14"⟩,
  ⟨["Xsux", "Cuneiform"], "73728 922 102 111 1 5 11 196"⟩,
  ⟨["Yezi", "Yezidi"], "69248 42 1 3 2 2"⟩,
  ⟨["Yiii", "Yi"], "40960 1165 3 55"⟩,
  ⟨["Zanb", "Zanabazar_Square"], "72192 72"⟩,
  ⟨["Zinh", "Inherited", "Qaai"],
    "768 112 277 2 452 11 26 1 736 4 4443 46 2 12 484 3 1 13 1 7 4 1 6 1 3 2 198 64 524 2 194 33
    3897 4 107 2 52581 16 16 14 975 1 226 1 4186 1 48068 46 2 23 544 3 17 8 2 7 30 4 798546 240"⟩,
  ⟨["Zyyy", "Common"],
    "0 65 26 6 26 47 1 15 1 5 23 1 31 1 449 39 5 5 2 20 116 1 9 1 6 1 1 1 637 1 6 1 14 1 3 1 32
    1 156 1 516 1 129 2 1241 1 405 4 290 1 1519 3 71 2 203 2 1 1 1229 1 13 1 7 4 1 6 1 3 2 1 773
    12 2 87 1 11 3 11 1 15 17 34 62 38 1 3 2 6 1 27 1 17 41 3 4 666 22 11 21 928 256 628 2 138
    512 94 402 21 1 1 1 25 15 8 4 4 91 2 3 1 90 2 147 16 32 38 9 1 48 64 31 81 47 1 88 168 6592
    64 22784 34 102 3 165 10 244 1 160 1 395 1 14 2 20946 2 208 10 22 35 1 19 1 4 147 1 1 32 26
    6 26 11 10 1 45 2 64 7 1 7 10 5 258 3 4 45 3 9 80 13 51 45 228 27 47524 4 3932 253 3 436 6
    23 15 17 95 116 60 246 10 39 2 62 3 17 8 2 7 30 4 61 213 20 12 20 12 87 9 25 135 85 1 71 1 2
    2 1 2 2 2 4 1 12 1 1 1 7 1 65 1 4 2 8 1 7 1 28 1 4 1 5 1 1 3 7 1 340 2 292 2 50 5233 68 76
    61 706 44 4 100 12 15 2 15 1 15 1 37 10 174 56 26 1 2 13 44 4 9 7 2 14 6 154 985 3 17 3 13 3
    218 6 12 4 1 15 12 4 56 8 10 6 40 8 30 2 12 4 2 14 9 39 344 8 14 2 13 3 11 3 57 1 1 4 16 2
    12 4 10 7 147 1 103 787462 1 30 96"⟩]

end Relink.Unicode
