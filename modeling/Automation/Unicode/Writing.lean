import Automation.Unicode.Fold
/-! Scripts in wide use and the code points that belong to each, as ranges in hexadecimal. -/
namespace Automation.Unicode

def scriptTexts : List (String × String) :=
  [("arabic", String.join
    ["600:605 608:608 60d:61a 61c:61e 620:63f 641:64a 656:65f 66a:66f 671:6dc 6de:6ef ",
     "6fa:6ff 750:77f 870:88e 890:891 898:8e1 8e3:8ff fb50:fbc2 fbd3:fd3d fd40:fd8f ",
     "fd92:fdc7 fdcf:fdcf fdf0:fdfb fdfd:fdff fe70:fe74 fe76:fefc 1ee00:1ee03 1ee05:1ee1f ",
     "1ee21:1ee22 1ee24:1ee24 1ee27:1ee27 1ee29:1ee32 1ee34:1ee37 1ee39:1ee39 1ee3b:1ee3b ",
     "1ee42:1ee42 1ee47:1ee47 1ee49:1ee49 1ee4b:1ee4b 1ee4d:1ee4f 1ee51:1ee52 1ee54:1ee54 ",
     "1ee57:1ee57 1ee59:1ee59 1ee5b:1ee5b 1ee5d:1ee5d 1ee5f:1ee5f 1ee61:1ee62 1ee64:1ee64 ",
     "1ee67:1ee6a 1ee6c:1ee72 1ee74:1ee77 1ee79:1ee7c 1ee7e:1ee7e 1ee80:1ee89 1ee8b:1ee9b ",
     "1eea1:1eea3 1eea5:1eea9 1eeab:1eebb 1eef0:1eef1"]),
   ("armenian", "531:556 559:58a 58f:58f fb13:fb17"),
   ("bengali", String.join
    ["980:983 985:98c 98f:990 993:9a8 9aa:9b0 9b2:9b2 9b6:9b9 9bc:9c4 9c7:9c8 9cb:9ce ",
     "9d7:9d7 9dc:9dd 9df:9e3 9e6:9fe"]),
   ("braille", "2800:28ff"),
   ("cherokee", "13a0:13f5 13f8:13fd ab70:abbf"),
   ("cyrillic", "400:52f 1c80:1c88 1d2b:1d2b 1d78:1d78 2de0:2dff a640:a672 a674:a69f fe2e:fe2f"),
   ("devanagari", "900:950 953:963 966:97f a8f2:a8ff"),
   ("ethiopic", String.join
    ["1200:1248 124a:124d 1250:1256 1258:1258 125a:125d 1260:1288 128a:128d 1290:12b0 ",
     "12b2:12b5 12b8:12be 12c0:12c0 12c2:12c5 12c8:12d6 12d8:1310 1312:1315 1318:135a ",
     "135d:137c 1380:1399 2d80:2d96 2da0:2da6 2da8:2dae 2db0:2db6 2db8:2dbe 2dc0:2dc6 ",
     "2dc8:2dce 2dd0:2dd6 2dd8:2dde ab01:ab06 ab09:ab0e ab11:ab16 ab20:ab26 ab28:ab2e ",
     "1e7e0:1e7e6 1e7e8:1e7eb 1e7ed:1e7ee 1e7f0:1e7fe"]),
   ("georgian", String.join
    ["10a0:10c5 10c7:10c7 10cd:10cd 10d0:10fa 10fd:10ff 1c90:1cba 1cbd:1cbf 2d00:2d25 ",
     "2d27:2d27 2d2d:2d2d"]),
   ("greek", String.join
    ["370:377 37a:37d 37f:37f 384:384 386:386 388:38a 38c:38c 38e:3a1 3a3:3e1 3f0:3ff ",
     "1d26:1d2a 1d5e:1d5e 1d60:1d60 1d66:1d6a 1f00:1f15 1f18:1f1d 1f20:1f45 1f48:1f4d ",
     "1f50:1f57 1f59:1f59 1f5b:1f5b 1f5d:1f5d 1f5f:1f7d 1f80:1fb4 1fb6:1fc4 1fc6:1fd3 ",
     "1fd6:1fdb 1fdd:1fef 1ff2:1ff4 1ff6:1ffe 2126:2126 ab65:ab65 10140:1018d 101a0:101a0 ",
     "1d200:1d241 1d245:1d245"]),
   ("han", String.join
    ["2e80:2e99 2e9b:2ef3 2f00:2fd5 3005:3005 3007:3007 3021:3029 3038:303b 3400:4dbf ",
     "4e00:9fff f900:fa6d fa70:fad9 20000:2a6df 2a700:2b738 2b740:2b81d 2b820:2cea1 ",
     "2ceb0:2ebe0 2ebf0:2ee5d 2f800:2fa1d 30000:3134a 31350:323af"]),
   ("hangul", String.join
    ["1100:11ff 3131:318e 3200:321e 3260:327e a960:a97c ac00:d7a3 d7b0:d7c6 d7cb:d7fb ",
     "ffa0:ffbe ffc2:ffc7 ffca:ffcf ffd2:ffd7 ffda:ffdc"]),
   ("hebrew", "591:5c7 5d0:5ea 5ef:5f4 fb1d:fb36 fb38:fb3c fb3e:fb3e fb40:fb41 fb43:fb44 fb46:fb4f"),
   ("hiragana", "3041:3096 309d:309f 1b001:1b001 1b11f:1b11f 1b150:1b152"),
   ("katakana", String.join
    ["30a1:30fa 30fd:30ff 31f0:31ff 32d0:32fe 3300:3357 ff66:ff6f ff71:ff9d 1aff0:1aff3 ",
     "1aff5:1affb 1affd:1affe 1b000:1b000 1b120:1b122 1b164:1b167"]),
   ("khmer", "1780:17dd 17e0:17e9 17f0:17f9 19e0:19ff"),
   ("lao", String.join
    ["e81:e82 e84:e84 e86:e8a e8c:ea3 ea5:ea5 ea7:ebd ec0:ec4 ec6:ec6 ec8:ecd ed0:ed9 ",
     "edc:edf"]),
   ("latin", String.join
    ["41:5a 61:7a aa:aa ba:ba c0:d6 d8:f6 f8:2b8 2e0:2e4 1d00:1d25 1d2c:1d5c 1d62:1d65 ",
     "1d6b:1d77 1d79:1d9a 1e00:1eff 2071:2071 207f:207f 2090:209c 212a:212b 2132:2132 ",
     "214e:214e 2160:2188 2c60:2c7c 2c7e:2c7f a722:a76f a771:a787 a78b:a7ca a7d0:a7d1 ",
     "a7d3:a7d3 a7d5:a7d9 a7f5:a7f7 a7fa:a7ff ab30:ab5a ab60:ab64 ab66:ab68 fb00:fb06 ",
     "ff21:ff3a ff41:ff5a 1df00:1df1e"]),
   ("mongolian", "1800:1801 1804:1804 1806:1819 1820:1878 1880:18aa 11660:1166c"),
   ("myanmar", "1000:109f a9e0:a9fe aa60:aa7f"),
   ("syriac", "700:70d 70f:74a 74d:74f 860:86a"),
   ("tamil", String.join
    ["b82:b83 b85:b8a b8e:b90 b92:b95 b99:b9a b9c:b9c b9e:b9f ba3:ba4 ba8:baa bae:bb9 ",
     "bbe:bc2 bc6:bc8 bca:bcd bd0:bd0 bd7:bd7 be6:bfa 11fc0:11ff1 11fff:11fff"]),
   ("thai", "e01:e3a e40:e5b"),
   ("tibetan", "f00:f47 f49:f6c f71:f97 f99:fbc fbe:fcc fce:fd4 fd9:fda")]

def readRange? (cs : List Char) : Option (Nat × Nat) :=
  match readNumbers cs with
  | [a, b] => some (a, b)
  | _ => none

def script? (name : String) : Option (List (Nat × Nat)) :=
  (scriptTexts.find? fun row => row.1 == name).map fun row =>
    (splitAt ' ' row.2.toList).filterMap readRange?

end Automation.Unicode
