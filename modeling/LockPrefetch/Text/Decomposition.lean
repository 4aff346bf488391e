import LockPrefetch.Bytes.Hex
import LockPrefetch.Text.Split
import Std.Data.HashMap

/-! # Decompositions

What characters are made of. A letter with a mark is made of the letter and the mark, and the
two can be put together again; a compatibility character, such as a ligature or a full-width
letter, is made of the plain characters that it stands for. The decompositions are those of
Unicode 3.2, which names on the Internet are prepared by; pairs that were given a character of
their own later are put together as well, but not taken apart. -/

set_option autoImplicit false

namespace LockPrefetch.Text

/-! ## The tables

A line of a table holds runs between semicolons: the first code point of the run, a colon, and
what stands for it and for the code points after it, between commas. Numbers are hexadecimal. -/

/-- The number that hexadecimal digits of a table stand for. -/
def tableNumber (digits : List Char) : Nat := (Hex.number? digits).getD 0

/-- The entries of a run. -/
def runEntries (run : List Char) : List (Nat × List Nat) :=
  match cut ':' run with
  | (first, some expansions) =>
    ((pieces ',' expansions).zipIdx (tableNumber first)).map fun (expansion, code) =>
      (code, (pieces ' ' expansion).map tableNumber)
  | (_, none) => []

/-- The entries of a table. -/
def tableEntries (table : List String) : List (Nat × List Nat) :=
  table.flatMap fun line => (pieces ';' line.toList).flatMap runEntries

/-- Characters made of a pair that can be put together again. -/
def pairTable : List String :=
  ["c0:41 300,41 301,41 302,41 303,41 308,41 30a;c7:43 327,45 300,45 301,45 302,45 308,49 300",
   "cd:49 301,49 302,49 308;d1:4e 303,4f 300,4f 301,4f 302,4f 303,4f 308;d9:55 300,55 301,55 302",
   "dc:55 308,59 301;e0:61 300,61 301,61 302,61 303,61 308,61 30a;e7:63 327,65 300,65 301,65 302",
   "eb:65 308,69 300,69 301,69 302,69 308;f1:6e 303,6f 300,6f 301,6f 302,6f 303,6f 308;f9:75 300",
   "fa:75 301,75 302,75 308,79 301;ff:79 308,41 304,61 304,41 306,61 306,41 328,61 328,43 301",
   "107:63 301,43 302,63 302,43 307,63 307,43 30c,63 30c,44 30c,64 30c;112:45 304,65 304,45 306",
   "115:65 306,45 307,65 307,45 328,65 328,45 30c,65 30c,47 302,67 302,47 306,67 306,47 307",
   "121:67 307,47 327,67 327,48 302,68 302;128:49 303,69 303,49 304,69 304,49 306,69 306,49 328",
   "12f:69 328,49 307;134:4a 302,6a 302,4b 327,6b 327;139:4c 301,6c 301,4c 327,6c 327,4c 30c",
   "13e:6c 30c;143:4e 301,6e 301,4e 327,6e 327,4e 30c,6e 30c;14c:4f 304,6f 304,4f 306,6f 306",
   "150:4f 30b,6f 30b;154:52 301,72 301,52 327,72 327,52 30c,72 30c,53 301,73 301,53 302,73 302",
   "15e:53 327,73 327,53 30c,73 30c,54 327,74 327,54 30c,74 30c;168:55 303,75 303,55 304,75 304",
   "16c:55 306,75 306,55 30a,75 30a,55 30b,75 30b,55 328,75 328,57 302,77 302,59 302,79 302",
   "178:59 308,5a 301,7a 301,5a 307,7a 307,5a 30c,7a 30c;1a0:4f 31b,6f 31b;1af:55 31b,75 31b",
   "1cd:41 30c,61 30c,49 30c,69 30c,4f 30c,6f 30c,55 30c,75 30c,dc 304,fc 304,dc 301,fc 301",
   "1d9:dc 30c,fc 30c,dc 300,fc 300;1de:c4 304,e4 304,226 304,227 304,c6 304,e6 304;1e6:47 30c",
   "1e7:67 30c,4b 30c,6b 30c,4f 328,6f 328,1ea 304,1eb 304,1b7 30c,292 30c,6a 30c;1f4:47 301",
   "1f5:67 301;1f8:4e 300,6e 300,c5 301,e5 301,c6 301,e6 301,d8 301,f8 301,41 30f,61 30f,41 311",
   "203:61 311,45 30f,65 30f,45 311,65 311,49 30f,69 30f,49 311,69 311,4f 30f,6f 30f,4f 311",
   "20f:6f 311,52 30f,72 30f,52 311,72 311,55 30f,75 30f,55 311,75 311,53 326,73 326,54 326",
   "21b:74 326;21e:48 30c,68 30c;226:41 307,61 307,45 327,65 327,d6 304,f6 304,d5 304,f5 304",
   "22e:4f 307,6f 307,22e 304,22f 304,59 304,79 304;385:a8 301,391 301;388:395 301,397 301",
   "38a:399 301;38c:39f 301;38e:3a5 301,3a9 301,3ca 301;3aa:399 308,3a5 308,3b1 301,3b5 301",
   "3ae:3b7 301,3b9 301,3cb 301;3ca:3b9 308,3c5 308,3bf 301,3c5 301,3c9 301;3d3:3d2 301,3d2 308",
   "400:415 300,415 308;403:413 301;407:406 308;40c:41a 301,418 300,423 306;419:418 306",
   "439:438 306;450:435 300,435 308;453:433 301;457:456 308;45c:43a 301,438 300,443 306",
   "476:474 30f,475 30f;4c1:416 306,436 306;4d0:410 306,430 306,410 308,430 308;4d6:415 306",
   "4d7:435 306;4da:4d8 308,4d9 308,416 308,436 308,417 308,437 308;4e2:418 304,438 304,418 308",
   "4e5:438 308,41e 308,43e 308;4ea:4e8 308,4e9 308,42d 308,44d 308,423 304,443 304,423 308",
   "4f1:443 308,423 30b,443 30b,427 308,447 308;4f8:42b 308,44b 308;622:627 653,627 654,648 654",
   "625:627 655,64a 654;6c0:6d5 654;6c2:6c1 654;6d3:6d2 654;929:928 93c;931:930 93c;934:933 93c",
   "9cb:9c7 9be,9c7 9d7;b48:b47 b56;b4b:b47 b3e,b47 b57;b94:b92 bd7;bca:bc6 bbe,bc7 bbe,bc6 bd7",
   "c48:c46 c56;cc0:cbf cd5;cc7:cc6 cd5,cc6 cd6;cca:cc6 cc2,cca cd5;d4a:d46 d3e,d47 d3e,d46 d57",
   "dda:dd9 dca;ddc:dd9 dcf,ddc dca,dd9 ddf;1026:1025 102e;1e00:41 325,61 325,42 307,62 307",
   "1e04:42 323,62 323,42 331,62 331,c7 301,e7 301,44 307,64 307,44 323,64 323,44 331,64 331",
   "1e10:44 327,64 327,44 32d,64 32d,112 300,113 300,112 301,113 301,45 32d,65 32d,45 330,65 330",
   "1e1c:228 306,229 306,46 307,66 307,47 304,67 304,48 307,68 307,48 323,68 323,48 308,68 308",
   "1e28:48 327,68 327,48 32e,68 32e,49 330,69 330,cf 301,ef 301,4b 301,6b 301,4b 323,6b 323",
   "1e34:4b 331,6b 331,4c 323,6c 323,1e36 304,1e37 304,4c 331,6c 331,4c 32d,6c 32d,4d 301,6d 301",
   "1e40:4d 307,6d 307,4d 323,6d 323,4e 307,6e 307,4e 323,6e 323,4e 331,6e 331,4e 32d,6e 32d",
   "1e4c:d5 301,f5 301,d5 308,f5 308,14c 300,14d 300,14c 301,14d 301,50 301,70 301,50 307,70 307",
   "1e58:52 307,72 307,52 323,72 323,1e5a 304,1e5b 304,52 331,72 331,53 307,73 307,53 323,73 323",
   "1e64:15a 307,15b 307,160 307,161 307,1e62 307,1e63 307,54 307,74 307,54 323,74 323,54 331",
   "1e6f:74 331,54 32d,74 32d,55 324,75 324,55 330,75 330,55 32d,75 32d,168 301,169 301,16a 308",
   "1e7b:16b 308,56 303,76 303,56 323,76 323,57 300,77 300,57 301,77 301,57 308,77 308,57 307",
   "1e87:77 307,57 323,77 323,58 307,78 307,58 308,78 308,59 307,79 307,5a 302,7a 302,5a 323",
   "1e93:7a 323,5a 331,7a 331,68 331,74 308,77 30a,79 30a;1e9b:17f 307;1ea0:41 323,61 323,41 309",
   "1ea3:61 309,c2 301,e2 301,c2 300,e2 300,c2 309,e2 309,c2 303,e2 303,1ea0 302,1ea1 302",
   "1eae:102 301,103 301,102 300,103 300,102 309,103 309,102 303,103 303,1ea0 306,1ea1 306",
   "1eb8:45 323,65 323,45 309,65 309,45 303,65 303,ca 301,ea 301,ca 300,ea 300,ca 309,ea 309",
   "1ec4:ca 303,ea 303,1eb8 302,1eb9 302,49 309,69 309,49 323,69 323,4f 323,6f 323,4f 309,6f 309",
   "1ed0:d4 301,f4 301,d4 300,f4 300,d4 309,f4 309,d4 303,f4 303,1ecc 302,1ecd 302,1a0 301",
   "1edb:1a1 301,1a0 300,1a1 300,1a0 309,1a1 309,1a0 303,1a1 303,1a0 323,1a1 323,55 323,75 323",
   "1ee6:55 309,75 309,1af 301,1b0 301,1af 300,1b0 300,1af 309,1b0 309,1af 303,1b0 303,1af 323",
   "1ef1:1b0 323,59 300,79 300,59 323,79 323,59 309,79 309,59 303,79 303;1f00:3b1 313,3b1 314",
   "1f02:1f00 300,1f01 300,1f00 301,1f01 301,1f00 342,1f01 342,391 313,391 314,1f08 300,1f09 300",
   "1f0c:1f08 301,1f09 301,1f08 342,1f09 342,3b5 313,3b5 314,1f10 300,1f11 300,1f10 301,1f11 301",
   "1f18:395 313,395 314,1f18 300,1f19 300,1f18 301,1f19 301;1f20:3b7 313,3b7 314,1f20 300",
   "1f23:1f21 300,1f20 301,1f21 301,1f20 342,1f21 342,397 313,397 314,1f28 300,1f29 300,1f28 301",
   "1f2d:1f29 301,1f28 342,1f29 342,3b9 313,3b9 314,1f30 300,1f31 300,1f30 301,1f31 301,1f30 342",
   "1f37:1f31 342,399 313,399 314,1f38 300,1f39 300,1f38 301,1f39 301,1f38 342,1f39 342,3bf 313",
   "1f41:3bf 314,1f40 300,1f41 300,1f40 301,1f41 301;1f48:39f 313,39f 314,1f48 300,1f49 300",
   "1f4c:1f48 301,1f49 301;1f50:3c5 313,3c5 314,1f50 300,1f51 300,1f50 301,1f51 301,1f50 342",
   "1f57:1f51 342;1f59:3a5 314;1f5b:1f59 300;1f5d:1f59 301;1f5f:1f59 342,3c9 313,3c9 314",
   "1f62:1f60 300,1f61 300,1f60 301,1f61 301,1f60 342,1f61 342,3a9 313,3a9 314,1f68 300,1f69 300",
   "1f6c:1f68 301,1f69 301,1f68 342,1f69 342,3b1 300;1f72:3b5 300;1f74:3b7 300;1f76:3b9 300",
   "1f78:3bf 300;1f7a:3c5 300;1f7c:3c9 300;1f80:1f00 345,1f01 345,1f02 345,1f03 345,1f04 345",
   "1f85:1f05 345,1f06 345,1f07 345,1f08 345,1f09 345,1f0a 345,1f0b 345,1f0c 345,1f0d 345",
   "1f8e:1f0e 345,1f0f 345,1f20 345,1f21 345,1f22 345,1f23 345,1f24 345,1f25 345,1f26 345",
   "1f97:1f27 345,1f28 345,1f29 345,1f2a 345,1f2b 345,1f2c 345,1f2d 345,1f2e 345,1f2f 345",
   "1fa0:1f60 345,1f61 345,1f62 345,1f63 345,1f64 345,1f65 345,1f66 345,1f67 345,1f68 345",
   "1fa9:1f69 345,1f6a 345,1f6b 345,1f6c 345,1f6d 345,1f6e 345,1f6f 345,3b1 306,3b1 304,1f70 345",
   "1fb3:3b1 345,3ac 345;1fb6:3b1 342,1fb6 345,391 306,391 304,391 300;1fbc:391 345;1fc1:a8 342",
   "1fc2:1f74 345,3b7 345,3ae 345;1fc6:3b7 342,1fc6 345,395 300;1fca:397 300;1fcc:397 345",
   "1fcd:1fbf 300,1fbf 301,1fbf 342,3b9 306,3b9 304,3ca 300;1fd6:3b9 342,3ca 342,399 306,399 304",
   "1fda:399 300;1fdd:1ffe 300,1ffe 301,1ffe 342,3c5 306,3c5 304,3cb 300;1fe4:3c1 313,3c1 314",
   "1fe6:3c5 342,3cb 342,3a5 306,3a5 304,3a5 300;1fec:3a1 314,a8 300;1ff2:1f7c 345,3c9 345",
   "1ff4:3ce 345;1ff6:3c9 342,1ff6 345,39f 300;1ffa:3a9 300;1ffc:3a9 345;219a:2190 338,2192 338",
   "21ae:2194 338;21cd:21d0 338,21d4 338,21d2 338;2204:2203 338;2209:2208 338;220c:220b 338",
   "2224:2223 338;2226:2225 338;2241:223c 338;2244:2243 338;2247:2245 338;2249:2248 338",
   "2260:3d 338;2262:2261 338;226d:224d 338,3c 338,3e 338,2264 338,2265 338;2274:2272 338",
   "2275:2273 338;2278:2276 338,2277 338;2280:227a 338,227b 338;2284:2282 338,2283 338",
   "2288:2286 338,2287 338;22ac:22a2 338,22a8 338,22a9 338,22ab 338;22e0:227c 338,227d 338",
   "22e2:2291 338,2292 338;22ea:22b2 338,22b3 338,22b4 338,22b5 338;304c:304b 3099",
   "304e:304d 3099;3050:304f 3099;3052:3051 3099;3054:3053 3099;3056:3055 3099;3058:3057 3099",
   "305a:3059 3099;305c:305b 3099;305e:305d 3099;3060:305f 3099;3062:3061 3099;3065:3064 3099",
   "3067:3066 3099;3069:3068 3099;3070:306f 3099,306f 309a;3073:3072 3099,3072 309a",
   "3076:3075 3099,3075 309a;3079:3078 3099,3078 309a;307c:307b 3099,307b 309a;3094:3046 3099",
   "309e:309d 3099;30ac:30ab 3099;30ae:30ad 3099;30b0:30af 3099;30b2:30b1 3099;30b4:30b3 3099",
   "30b6:30b5 3099;30b8:30b7 3099;30ba:30b9 3099;30bc:30bb 3099;30be:30bd 3099;30c0:30bf 3099",
   "30c2:30c1 3099;30c5:30c4 3099;30c7:30c6 3099;30c9:30c8 3099;30d0:30cf 3099,30cf 309a",
   "30d3:30d2 3099,30d2 309a;30d6:30d5 3099,30d5 309a;30d9:30d8 3099,30d8 309a;30dc:30db 3099",
   "30dd:30db 309a;30f4:30a6 3099;30f7:30ef 3099,30f0 3099,30f1 3099,30f2 3099;30fe:30fd 3099"]

/-- Characters beyond Unicode 3.2 that pairs are put together to. -/
def laterPairTable : List String :=
  ["1b06:1b05 1b35;1b08:1b07 1b35;1b0a:1b09 1b35;1b0c:1b0b 1b35;1b0e:1b0d 1b35;1b12:1b11 1b35",
   "1b3b:1b3a 1b35;1b3d:1b3c 1b35;1b40:1b3e 1b35,1b3f 1b35;1b43:1b42 1b35;1109a:11099 110ba",
   "1109c:1109b 110ba;110ab:110a5 110ba;1112e:11131 11127,11132 11127;1134b:11347 1133e",
   "1134c:11347 11357;114bb:114b9 114ba,114b9 114b0;114be:114b9 114bd;115ba:115b8 115af",
   "115bb:115b9 115af;11938:11935 11930"]

/-- Characters made of others for good. -/
def expansionTable : List String :=
  ["a0:20;a8:20 308;aa:61;af:20 304;b2:32,33,20 301,3bc;b8:20 327,31,6f;bc:31 2044 34,31 2044 32",
   "be:33 2044 34;132:49 4a,69 6a;13f:4c b7,6c b7;149:2bc 6e;17f:73;1c4:44 17d,44 17e,64 17e",
   "1c7:4c 4a,4c 6a,6c 6a,4e 4a,4e 6a,6e 6a;1f1:44 5a,44 7a,64 7a;2b0:68,266,6a,72,279,27b,281",
   "2b7:77,79;2d8:20 306,20 307,20 30a,20 328,20 303,20 30b;2e0:263,6c,73,78,295;340:300,301",
   "343:313,308 301;374:2b9;37a:20 345;37e:3b;384:20 301;387:b7;3d0:3b2,3b8,3a5;3d5:3c6,3c0",
   "3f0:3ba,3c1,3c2;3f4:398,3b5;587:565 582;675:627 674,648 674,6c7 674,64a 674;958:915 93c",
   "959:916 93c,917 93c,91c 93c,921 93c,922 93c,92b 93c,92f 93c;9dc:9a1 9bc,9a2 9bc;9df:9af 9bc",
   "a33:a32 a3c;a36:a38 a3c;a59:a16 a3c,a17 a3c,a1c a3c;a5e:a2b a3c;b5c:b21 b3c,b22 b3c",
   "e33:e4d e32;eb3:ecd eb2;edc:eab e99,eab ea1;f0c:f0b;f43:f42 fb7;f4d:f4c fb7;f52:f51 fb7",
   "f57:f56 fb7;f5c:f5b fb7;f69:f40 fb5;f73:f71 f72;f75:f71 f74,fb2 f80,fb2 f81,fb3 f80,fb3 f81",
   "f81:f71 f80;f93:f92 fb7;f9d:f9c fb7;fa2:fa1 fb7;fa7:fa6 fb7;fac:fab fb7;fb9:f90 fb5",
   "1e9a:61 2be;1f71:3ac;1f73:3ad;1f75:3ae;1f77:3af;1f79:3cc;1f7b:3cd;1f7d:3ce;1fbb:386",
   "1fbd:20 313,3b9,20 313,20 342;1fc9:388;1fcb:389;1fd3:390;1fdb:38a;1fe3:3b0;1feb:38e;1fee:385",
   "1fef:60;1ff9:38c;1ffb:38f;1ffd:b4,20 314;2000:2002,2003,20,20,20,20,20,20,20,20,20;2011:2010",
   "2017:20 333;2024:2e,2e 2e,2e 2e 2e;202f:20;2033:2032 2032,2032 2032 2032;2036:2035 2035",
   "2037:2035 2035 2035;203c:21 21;203e:20 305;2047:3f 3f,3f 21,21 3f;2057:2032 2032 2032 2032",
   "205f:20;2070:30,69;207a:2b,2212,3d,28,29,6e;208a:2b,2212,3d,28,29;20a8:52 73;2100:61 2f 63",
   "2101:61 2f 73,43,b0 43;2105:63 2f 6f,63 2f 75,190;2109:b0 46,67,48,48,48,68,127,49,49,4c,6c",
   "2115:4e,4e 6f;2119:50,51,52,52,52;2120:53 4d,54 45 4c,54 4d;2124:5a;2126:3a9;2128:5a;212a:4b",
   "212b:c5,42,43;212f:65,45,46;2133:4d,6f;2139:69;213d:3b3,393,3a0,2211;2145:44,64,65,69,6a",
   "2153:31 2044 33,32 2044 33,31 2044 35,32 2044 35,33 2044 35,34 2044 35,31 2044 36,35 2044 36",
   "215b:31 2044 38,33 2044 38,35 2044 38,37 2044 38,31 2044,49,49 49,49 49 49,49 56,56,56 49",
   "2166:56 49 49,56 49 49 49,49 58,58,58 49,58 49 49,4c,43,44,4d,69,69 69,69 69 69,69 76,76",
   "2175:76 69,76 69 69,76 69 69 69,69 78,78,78 69,78 69 69,6c,63,64,6d;222c:222b 222b",
   "222d:222b 222b 222b;222f:222e 222e,222e 222e 222e;2329:3008,3009;2469:31 30,31 31,31 32",
   "246c:31 33,31 34,31 35,31 36,31 37,31 38,31 39,32 30,28 31 29,28 32 29,28 33 29,28 34 29",
   "2478:28 35 29,28 36 29,28 37 29,28 38 29,28 39 29,28 31 30 29,28 31 31 29,28 31 32 29",
   "2480:28 31 33 29,28 31 34 29,28 31 35 29,28 31 36 29,28 31 37 29,28 31 38 29,28 31 39 29",
   "2487:28 32 30 29,31 2e,32 2e,33 2e,34 2e,35 2e,36 2e,37 2e,38 2e,39 2e,31 30 2e,31 31 2e",
   "2493:31 32 2e,31 33 2e,31 34 2e,31 35 2e,31 36 2e,31 37 2e,31 38 2e,31 39 2e,32 30 2e",
   "249c:28 61 29,28 62 29,28 63 29,28 64 29,28 65 29,28 66 29,28 67 29,28 68 29,28 69 29",
   "24a5:28 6a 29,28 6b 29,28 6c 29,28 6d 29,28 6e 29,28 6f 29,28 70 29,28 71 29,28 72 29",
   "24ae:28 73 29,28 74 29,28 75 29,28 76 29,28 77 29,28 78 29,28 79 29,28 7a 29;24ea:30",
   "2a0c:222b 222b 222b 222b;2a74:3a 3a 3d,3d 3d,3d 3d 3d;2adc:2add 338;2e9f:6bcd;2ef3:9f9f",
   "2f00:4e00,4e28,4e36,4e3f,4e59,4e85,4e8c,4ea0,4eba,513f,5165,516b,5182,5196,51ab,51e0,51f5",
   "2f11:5200,529b,52f9,5315,531a,5338,5341,535c,5369,5382,53b6,53c8,53e3,56d7,571f,58eb,5902",
   "2f22:590a,5915,5927,5973,5b50,5b80,5bf8,5c0f,5c22,5c38,5c6e,5c71,5ddb,5de5,5df1,5dfe,5e72",
   "2f33:5e7a,5e7f,5ef4,5efe,5f0b,5f13,5f50,5f61,5f73,5fc3,6208,6236,624b,652f,6534,6587,6597",
   "2f44:65a4,65b9,65e0,65e5,66f0,6708,6728,6b20,6b62,6b79,6bb3,6bcb,6bd4,6bdb,6c0f,6c14,6c34",
   "2f55:706b,722a,7236,723b,723f,7247,7259,725b,72ac,7384,7389,74dc,74e6,7518,751f,7528,7530",
   "2f66:758b,7592,7676,767d,76ae,76bf,76ee,77db,77e2,77f3,793a,79b8,79be,7a74,7acb,7af9,7c73",
   "2f77:7cf8,7f36,7f51,7f8a,7fbd,8001,800c,8012,8033,807f,8089,81e3,81ea,81f3,81fc,820c,821b",
   "2f88:821f,826e,8272,8278,864d,866b,8840,884c,8863,897e,898b,89d2,8a00,8c37,8c46,8c55,8c78",
   "2f99:8c9d,8d64,8d70,8db3,8eab,8eca,8f9b,8fb0,8fb5,9091,9149,91c6,91cc,91d1,9577,9580,961c",
   "2faa:96b6,96b9,96e8,9751,975e,9762,9769,97cb,97ed,97f3,9801,98a8,98db,98df,9996,9999,99ac",
   "2fbb:9aa8,9ad8,9adf,9b25,9b2f,9b32,9b3c,9b5a,9ce5,9e75,9e7f,9ea5,9ebb,9ec3,9ecd,9ed1,9ef9",
   "2fcc:9efd,9f0e,9f13,9f20,9f3b,9f4a,9f52,9f8d,9f9c,9fa0;3000:20;3036:3012;3038:5341,5344,5345",
   "309b:20 3099,20 309a;309f:3088 308a;30ff:30b3 30c8;3131:1100,1101,11aa,1102,11ac,11ad,1103",
   "3138:1104,1105;3140:111a,1106,1107,1108,1121;3164:1160,1114,1115,11c7,11c8,11cc,11ce,11d3",
   "316c:11d7,11d9,111c,11dd,11df,111d,111e,1120,1122,1123,1127,1129;317d:1132,1136,1140,1147",
   "3181:114c,11f1,11f2,1157,1158,1159,1184,1185,1188,1191,1192,1194,119e,11a1;3192:4e00,4e8c",
   "3194:4e09,56db,4e0a,4e2d,4e0b,7532,4e59,4e19,4e01,5929,5730,4eba;3200:28 1100 29,28 1102 29",
   "3202:28 1103 29,28 1105 29,28 1106 29,28 1107 29,28 1109 29,28 110b 29,28 110c 29,28 110e 29",
   "320a:28 110f 29,28 1110 29,28 1111 29,28 1112 29,28 1100 1161 29,28 1102 1161 29",
   "3210:28 1103 1161 29,28 1105 1161 29,28 1106 1161 29,28 1107 1161 29,28 1109 1161 29",
   "3215:28 110b 1161 29,28 110c 1161 29,28 110e 1161 29,28 110f 1161 29,28 1110 1161 29",
   "321a:28 1111 1161 29,28 1112 1161 29,28 110c 116e 29;3220:28 4e00 29,28 4e8c 29,28 4e09 29",
   "3223:28 56db 29,28 4e94 29,28 516d 29,28 4e03 29,28 516b 29,28 4e5d 29,28 5341 29,28 6708 29",
   "322b:28 706b 29,28 6c34 29,28 6728 29,28 91d1 29,28 571f 29,28 65e5 29,28 682a 29,28 6709 29",
   "3233:28 793e 29,28 540d 29,28 7279 29,28 8ca1 29,28 795d 29,28 52b4 29,28 4ee3 29,28 547c 29",
   "323b:28 5b66 29,28 76e3 29,28 4f01 29,28 8cc7 29,28 5354 29,28 796d 29,28 4f11 29,28 81ea 29",
   "3243:28 81f3 29;3251:32 31,32 32,32 33,32 34,32 35,32 36,32 37,32 38,32 39,33 30,33 31,33 32",
   "325d:33 33,33 34,33 35,1100,1102,1103,1105,1106,1107,1109,110b,110c;326e:1100 1161,1102 1161",
   "3270:1103 1161,1105 1161,1106 1161,1107 1161,1109 1161,110b 1161,110c 1161,110e 1161",
   "3278:110f 1161,1110 1161,1111 1161,1112 1161;3280:4e00,4e8c,4e09,56db,4e94,516d,4e03,516b",
   "3288:4e5d,5341,6708,706b,6c34,6728,91d1,571f,65e5,682a,6709,793e,540d,7279,8ca1,795d,52b4",
   "3299:79d8,7537,5973,9069,512a,5370,6ce8,9805,4f11,5199,6b63,4e0a,4e2d,4e0b,5de6,53f3,533b",
   "32aa:5b97,5b66,76e3,4f01,8cc7,5354,591c,33 36,33 37,33 38,33 39,34 30,34 31,34 32,34 33",
   "32b9:34 34,34 35,34 36,34 37,34 38,34 39,35 30,31 6708,32 6708,33 6708,34 6708,35 6708",
   "32c5:36 6708,37 6708,38 6708,39 6708,31 30 6708,31 31 6708,31 32 6708;32d0:30a2,30a4,30a6",
   "32d3:30a8,30aa,30ab,30ad,30af,30b1,30b3,30b5,30b7,30b9,30bb,30bd,30bf,30c1,30c4,30c6,30c8",
   "32ea:30d2,30d5,30d8,30db;32f3:30e4,30e6;3300:30a2 30d1 30fc 30c8,30a2 30eb 30d5 30a1",
   "3302:30a2 30f3 30da 30a2,30a2 30fc 30eb,30a4 30cb 30f3 30b0,30a4 30f3 30c1,30a6 30a9 30f3",
   "3307:30a8 30b9 30af 30fc 30c9,30a8 30fc 30ab 30fc,30aa 30f3 30b9,30aa 30fc 30e0",
   "330b:30ab 30a4 30ea,30ab 30e9 30c3 30c8,30ab 30ed 30ea 30fc,30ac 30ed 30f3,30ac 30f3 30de",
   "3310:30ae 30ac,30ae 30cb 30fc,30ad 30e5 30ea 30fc,30ae 30eb 30c0 30fc,30ad 30ed",
   "3315:30ad 30ed 30b0 30e9 30e0,30ad 30ed 30e1 30fc 30c8 30eb,30ad 30ed 30ef 30c3 30c8",
   "3318:30b0 30e9 30e0,30b0 30e9 30e0 30c8 30f3,30af 30eb 30bc 30a4 30ed,30af 30ed 30fc 30cd",
   "331c:30b1 30fc 30b9,30b3 30eb 30ca,30b3 30fc 30dd,30b5 30a4 30af 30eb",
   "3320:30b5 30f3 30c1 30fc 30e0,30b7 30ea 30f3 30b0,30bb 30f3 30c1,30bb 30f3 30c8",
   "3324:30c0 30fc 30b9,30c7 30b7,30c9 30eb,30c8 30f3,30ca 30ce,30ce 30c3 30c8,30cf 30a4 30c4",
   "332b:30d1 30fc 30bb 30f3 30c8,30d1 30fc 30c4,30d0 30fc 30ec 30eb,30d4 30a2 30b9 30c8 30eb",
   "332f:30d4 30af 30eb,30d4 30b3,30d3 30eb,30d5 30a1 30e9 30c3 30c9,30d5 30a3 30fc 30c8",
   "3334:30d6 30c3 30b7 30a7 30eb,30d5 30e9 30f3,30d8 30af 30bf 30fc 30eb,30da 30bd",
   "3338:30da 30cb 30d2,30d8 30eb 30c4,30da 30f3 30b9,30da 30fc 30b8,30d9 30fc 30bf",
   "333d:30dd 30a4 30f3 30c8,30dc 30eb 30c8,30db 30f3,30dd 30f3 30c9,30db 30fc 30eb",
   "3342:30db 30fc 30f3,30de 30a4 30af 30ed,30de 30a4 30eb,30de 30c3 30cf,30de 30eb 30af",
   "3347:30de 30f3 30b7 30e7 30f3,30df 30af 30ed 30f3,30df 30ea,30df 30ea 30d0 30fc 30eb",
   "334b:30e1 30ac,30e1 30ac 30c8 30f3,30e1 30fc 30c8 30eb,30e4 30fc 30c9,30e4 30fc 30eb",
   "3350:30e6 30a2 30f3,30ea 30c3 30c8 30eb,30ea 30e9,30eb 30d4 30fc,30eb 30fc 30d6 30eb",
   "3355:30ec 30e0,30ec 30f3 30c8 30b2 30f3,30ef 30c3 30c8,30 70b9,31 70b9,32 70b9,33 70b9",
   "335c:34 70b9,35 70b9,36 70b9,37 70b9,38 70b9,39 70b9,31 30 70b9,31 31 70b9,31 32 70b9",
   "3365:31 33 70b9,31 34 70b9,31 35 70b9,31 36 70b9,31 37 70b9,31 38 70b9,31 39 70b9,32 30 70b9",
   "336d:32 31 70b9,32 32 70b9,32 33 70b9,32 34 70b9,68 50 61,64 61,41 55,62 61 72,6f 56,70 63",
   "337b:5e73 6210,662d 548c,5927 6b63,660e 6cbb,682a 5f0f 4f1a 793e,70 41,6e 41,3bc 41,6d 41",
   "3384:6b 41,4b 42,4d 42,47 42,63 61 6c,6b 63 61 6c,70 46,6e 46,3bc 46,3bc 67,6d 67,6b 67",
   "3390:48 7a,6b 48 7a,4d 48 7a,47 48 7a,54 48 7a,3bc 2113,6d 2113,64 2113,6b 2113,66 6d,6e 6d",
   "339b:3bc 6d,6d 6d,63 6d,6b 6d,6d 6d b2,63 6d b2,6d b2,6b 6d b2,6d 6d b3,63 6d b3,6d b3",
   "33a6:6b 6d b3,6d 2215 73,6d 2215 73 b2,50 61,6b 50 61,4d 50 61,47 50 61,72 61 64",
   "33ae:72 61 64 2215 73,72 61 64 2215 73 b2,70 73,6e 73,3bc 73,6d 73,70 56,6e 56,3bc 56,6d 56",
   "33b8:6b 56,4d 56,70 57,6e 57,3bc 57,6d 57,6b 57,4d 57,6b 3a9,4d 3a9,61 2e 6d 2e,42 71,63 63",
   "33c5:63 64,43 2215 6b 67,43 6f 2e,64 42,47 79,68 61,48 50,69 6e,4b 4b,4b 4d,6b 74,6c 6d",
   "33d1:6c 6e,6c 6f 67,6c 78,6d 62,6d 69 6c,6d 6f 6c,50 48,70 2e 6d 2e,50 50 4d,50 52,73 72",
   "33dc:53 76,57 62;33e0:31 65e5,32 65e5,33 65e5,34 65e5,35 65e5,36 65e5,37 65e5,38 65e5",
   "33e8:39 65e5,31 30 65e5,31 31 65e5,31 32 65e5,31 33 65e5,31 34 65e5,31 35 65e5,31 36 65e5",
   "33f0:31 37 65e5,31 38 65e5,31 39 65e5,32 30 65e5,32 31 65e5,32 32 65e5,32 33 65e5,32 34 65e5",
   "33f8:32 35 65e5,32 36 65e5,32 37 65e5,32 38 65e5,32 39 65e5,33 30 65e5,33 31 65e5;f900:8c48",
   "f901:66f4,8eca,8cc8,6ed1,4e32,53e5,9f9c,9f9c,5951,91d1,5587,5948,61f6,7669,7f85,863f,87ba",
   "f912:88f8,908f,6a02,6d1b,70d9,73de,843d,916a,99f1,4e82,5375,6b04,721b,862d,9e1e,5d50,6feb",
   "f923:85cd,8964,62c9,81d8,881f,5eca,6717,6d6a,72fc,90ce,4f86,51b7,52de,64c4,6ad3,7210,76e7",
   "f934:8001,8606,865c,8def,9732,9b6f,9dfa,788c,797f,7da0,83c9,9304,9e7f,8ad6,58df,5f04,7c60",
   "f945:807e,7262,78ca,8cc2,96f7,58d8,5c62,6a13,6dda,6f0f,7d2f,7e37,964b,52d2,808b,51dc,51cc",
   "f956:7a1c,7dbe,83f1,9675,8b80,62cf,6a02,8afe,4e39,5be7,6012,7387,7570,5317,78fb,4fbf,5fa9",
   "f967:4e0d,6ccc,6578,7d22,53c3,585e,7701,8449,8aaa,6bba,8fb0,6c88,62fe,82e5,63a0,7565,4eae",
   "f978:5169,51c9,6881,7ce7,826f,8ad2,91cf,52f5,5442,5973,5eec,65c5,6ffe,792a,95ad,9a6a,9e97",
   "f989:9ece,529b,66c6,6b77,8f62,5e74,6190,6200,649a,6f23,7149,7489,79ca,7df4,806f,8f26,84ee",
   "f99a:9023,934a,5217,52a3,54bd,70c8,88c2,8aaa,5ec9,5ff5,637b,6bae,7c3e,7375,4ee4,56f9,5be7",
   "f9ab:5dba,601c,73b2,7469,7f9a,8046,9234,96f6,9748,9818,4f8b,79ae,91b4,96b8,60e1,4e86,50da",
   "f9bc:5bee,5c3f,6599,6a02,71ce,7642,84fc,907c,9f8d,6688,962e,5289,677b,67f3,6d41,6e9c,7409",
   "f9cd:7559,786b,7d10,985e,516d,622e,9678,502b,5d19,6dea,8f2a,5f8b,6144,6817,7387,9686,5229",
   "f9de:540f,5c65,6613,674e,68a8,6ce5,7406,75e2,7f79,88cf,88e1,91cc,96e2,533f,6eba,541d,71d0",
   "f9ef:7498,85fa,96a3,9c57,9e9f,6797,6dcb,81e8,7acb,7b20,7c92,72c0,7099,8b58,4ec0,8336,523a",
   "fa00:5207,5ea6,62d3,7cd6,5b85,6d1e,66b4,8f3b,884c,964d,898b,5ed3,5140,55c0;fa10:585a",
   "fa12:6674;fa15:51de,732a,76ca,793c,795e,7965,798f,9756,7cbe,7fbd;fa20:8612;fa22:8af8",
   "fa25:9038,90fd;fa2a:98ef,98fc,9928,9db4;fa30:4fae,50e7,514d,52c9,52e4,5351,559d,5606,5668",
   "fa39:5840,58a8,5c64,5c6e,6094,6168,618e,61f2,654f,65e2,6691,6885,6d77,6e1a,6f22,716e,722b",
   "fa4a:7422,7891,793e,7949,7948,7950,7956,795d,798d,798e,7a40,7a81,7bc0,7df4,7e09,7e41,7f72",
   "fa5b:8005,81ed,8279,8279,8457,8910,8996,8b01,8b39,8cd3,8d08,8fb6,9038,96e3,97ff,983b",
   "fb00:66 66,66 69,66 6c,66 66 69,66 66 6c,17f 74,73 74;fb13:574 576,574 565,574 56b,57e 576",
   "fb17:574 56d;fb1d:5d9 5b4;fb1f:5f2 5b7,5e2,5d0,5d3,5d4,5db,5dc,5dd,5e8,5ea,2b,5e9 5c1",
   "fb2b:5e9 5c2,fb49 5c1,fb49 5c2,5d0 5b7,5d0 5b8,5d0 5bc,5d1 5bc,5d2 5bc,5d3 5bc,5d4 5bc",
   "fb35:5d5 5bc,5d6 5bc;fb38:5d8 5bc,5d9 5bc,5da 5bc,5db 5bc,5dc 5bc;fb3e:5de 5bc;fb40:5e0 5bc",
   "fb41:5e1 5bc;fb43:5e3 5bc,5e4 5bc;fb46:5e6 5bc,5e7 5bc,5e8 5bc,5e9 5bc,5ea 5bc,5d5 5b9",
   "fb4c:5d1 5bf,5db 5bf,5e4 5bf,5d0 5dc,671,671,67b,67b,67b,67b,67e,67e,67e,67e,680,680,680,680",
   "fb5e:67a,67a,67a,67a,67f,67f,67f,67f,679,679,679,679,6a4,6a4,6a4,6a4,6a6,6a6,6a6,6a6,684,684",
   "fb74:684,684,683,683,683,683,686,686,686,686,687,687,687,687,68d,68d,68c,68c,68e,68e,688,688",
   "fb8a:698,698,691,691,6a9,6a9,6a9,6a9,6af,6af,6af,6af,6b3,6b3,6b3,6b3,6b1,6b1,6b1,6b1,6ba,6ba",
   "fba0:6bb,6bb,6bb,6bb,6c0,6c0,6c1,6c1,6c1,6c1,6be,6be,6be,6be,6d2,6d2,6d3,6d3;fbd3:6ad,6ad",
   "fbd5:6ad,6ad,6c7,6c7,6c6,6c6,6c8,6c8,677,6cb,6cb,6c5,6c5,6c9,6c9,6d0,6d0,6d0,6d0,649,649",
   "fbea:626 627,626 627,626 6d5,626 6d5,626 648,626 648,626 6c7,626 6c7,626 6c6,626 6c6,626 6c8",
   "fbf5:626 6c8,626 6d0,626 6d0,626 6d0,626 649,626 649,626 649,6cc,6cc,6cc,6cc,626 62c,626 62d",
   "fc02:626 645,626 649,626 64a,628 62c,628 62d,628 62e,628 645,628 649,628 64a,62a 62c,62a 62d",
   "fc0d:62a 62e,62a 645,62a 649,62a 64a,62b 62c,62b 645,62b 649,62b 64a,62c 62d,62c 645,62d 62c",
   "fc18:62d 645,62e 62c,62e 62d,62e 645,633 62c,633 62d,633 62e,633 645,635 62d,635 645,636 62c",
   "fc23:636 62d,636 62e,636 645,637 62d,637 645,638 645,639 62c,639 645,63a 62c,63a 645,641 62c",
   "fc2e:641 62d,641 62e,641 645,641 649,641 64a,642 62d,642 645,642 649,642 64a,643 627,643 62c",
   "fc39:643 62d,643 62e,643 644,643 645,643 649,643 64a,644 62c,644 62d,644 62e,644 645,644 649",
   "fc44:644 64a,645 62c,645 62d,645 62e,645 645,645 649,645 64a,646 62c,646 62d,646 62e,646 645",
   "fc4f:646 649,646 64a,647 62c,647 645,647 649,647 64a,64a 62c,64a 62d,64a 62e,64a 645,64a 649",
   "fc5a:64a 64a,630 670,631 670,649 670,20 64c 651,20 64d 651,20 64e 651,20 64f 651,20 650 651",
   "fc63:20 651 670,626 631,626 632,626 645,626 646,626 649,626 64a,628 631,628 632,628 645",
   "fc6d:628 646,628 649,628 64a,62a 631,62a 632,62a 645,62a 646,62a 649,62a 64a,62b 631,62b 632",
   "fc78:62b 645,62b 646,62b 649,62b 64a,641 649,641 64a,642 649,642 64a,643 627,643 644,643 645",
   "fc83:643 649,643 64a,644 645,644 649,644 64a,645 627,645 645,646 631,646 632,646 645,646 646",
   "fc8e:646 649,646 64a,649 670,64a 631,64a 632,64a 645,64a 646,64a 649,64a 64a,626 62c,626 62d",
   "fc99:626 62e,626 645,626 647,628 62c,628 62d,628 62e,628 645,628 647,62a 62c,62a 62d,62a 62e",
   "fca4:62a 645,62a 647,62b 645,62c 62d,62c 645,62d 62c,62d 645,62e 62c,62e 645,633 62c,633 62d",
   "fcaf:633 62e,633 645,635 62d,635 62e,635 645,636 62c,636 62d,636 62e,636 645,637 62d,638 645",
   "fcba:639 62c,639 645,63a 62c,63a 645,641 62c,641 62d,641 62e,641 645,642 62d,642 645,643 62c",
   "fcc5:643 62d,643 62e,643 644,643 645,644 62c,644 62d,644 62e,644 645,644 647,645 62c,645 62d",
   "fcd0:645 62e,645 645,646 62c,646 62d,646 62e,646 645,646 647,647 62c,647 645,647 670,64a 62c",
   "fcdb:64a 62d,64a 62e,64a 645,64a 647,626 645,626 647,628 645,628 647,62a 645,62a 647,62b 645",
   "fce6:62b 647,633 645,633 647,634 645,634 647,643 644,643 645,644 645,646 645,646 647,64a 645",
   "fcf1:64a 647,640 64e 651,640 64f 651,640 650 651,637 649,637 64a,639 649,639 64a,63a 649",
   "fcfa:63a 64a,633 649,633 64a,634 649,634 64a,62d 649,62d 64a,62c 649,62c 64a,62e 649,62e 64a",
   "fd05:635 649,635 64a,636 649,636 64a,634 62c,634 62d,634 62e,634 645,634 631,633 631,635 631",
   "fd10:636 631,637 649,637 64a,639 649,639 64a,63a 649,63a 64a,633 649,633 64a,634 649,634 64a",
   "fd1b:62d 649,62d 64a,62c 649,62c 64a,62e 649,62e 64a,635 649,635 64a,636 649,636 64a,634 62c",
   "fd26:634 62d,634 62e,634 645,634 631,633 631,635 631,636 631,634 62c,634 62d,634 62e,634 645",
   "fd31:633 647,634 647,637 645,633 62c,633 62d,633 62e,634 62c,634 62d,634 62e,637 645,638 645",
   "fd3c:627 64b,627 64b;fd50:62a 62c 645,62a 62d 62c,62a 62d 62c,62a 62d 645,62a 62e 645",
   "fd55:62a 645 62c,62a 645 62d,62a 645 62e,62c 645 62d,62c 645 62d,62d 645 64a,62d 645 649",
   "fd5c:633 62d 62c,633 62c 62d,633 62c 649,633 645 62d,633 645 62d,633 645 62c,633 645 645",
   "fd63:633 645 645,635 62d 62d,635 62d 62d,635 645 645,634 62d 645,634 62d 645,634 62c 64a",
   "fd6a:634 645 62e,634 645 62e,634 645 645,634 645 645,636 62d 649,636 62e 645,636 62e 645",
   "fd71:637 645 62d,637 645 62d,637 645 645,637 645 64a,639 62c 645,639 645 645,639 645 645",
   "fd78:639 645 649,63a 645 645,63a 645 64a,63a 645 649,641 62e 645,641 62e 645,642 645 62d",
   "fd7f:642 645 645,644 62d 645,644 62d 64a,644 62d 649,644 62c 62c,644 62c 62c,644 62e 645",
   "fd86:644 62e 645,644 645 62d,644 645 62d,645 62d 62c,645 62d 645,645 62d 64a,645 62c 62d",
   "fd8d:645 62c 645,645 62e 62c,645 62e 645;fd92:645 62c 62e,647 645 62c,647 645 645",
   "fd95:646 62d 645,646 62d 649,646 62c 645,646 62c 645,646 62c 649,646 645 64a,646 645 649",
   "fd9c:64a 645 645,64a 645 645,628 62e 64a,62a 62c 64a,62a 62c 649,62a 62e 64a,62a 62e 649",
   "fda3:62a 645 64a,62a 645 649,62c 645 64a,62c 62d 649,62c 645 649,633 62e 649,635 62d 64a",
   "fdaa:634 62d 64a,636 62d 64a,644 62c 64a,644 645 64a,64a 62d 64a,64a 62c 64a,64a 645 64a",
   "fdb1:645 645 64a,642 645 64a,646 62d 64a,642 645 62d,644 62d 645,639 645 64a,643 645 64a",
   "fdb8:646 62c 62d,645 62e 64a,644 62c 645,643 645 645,644 62c 645,646 62c 62d,62c 62d 64a",
   "fdbf:62d 62c 64a,645 62c 64a,641 645 64a,628 62d 64a,643 645 645,639 62c 645,635 645 645",
   "fdc6:633 62e 64a,646 62c 64a;fdf0:635 644 6d2,642 644 6d2,627 644 644 647,627 643 628 631",
   "fdf4:645 62d 645 62f,635 644 639 645,631 633 648 644,639 644 64a 647,648 633 644 645",
   "fdf9:635 644 649,635 644 649 20 627 644 644 647 20 639 644 64a 647 20 648 633 644 645",
   "fdfb:62c 644 20 62c 644 627 644 647,631 6cc 627 644;fe30:2025,2014,2013,5f,5f,28,29,7b,7d",
   "fe39:3014,3015,3010,3011,300a,300b,3008,3009;fe49:203e,203e,203e,203e,5f,5f,5f,2c,3001,2e",
   "fe54:3b,3a,3f,21,2014,28,29,7b,7d,3014,3015,23,26,2a,2b,2d,3c,3e,3d;fe68:5c,24,25,40",
   "fe70:20 64b,640 64b,20 64c;fe74:20 64d;fe76:20 64e,640 64e,20 64f,640 64f,20 650,640 650",
   "fe7c:20 651,640 651,20 652,640 652,621,622,622,623,623,624,624,625,625,626,626,626,626,627",
   "fe8e:627,628,628,628,628,629,629,62a,62a,62a,62a,62b,62b,62b,62b,62c,62c,62c,62c,62d,62d,62d",
   "fea4:62d,62e,62e,62e,62e,62f,62f,630,630,631,631,632,632,633,633,633,633,634,634,634,634,635",
   "feba:635,635,635,636,636,636,636,637,637,637,637,638,638,638,638,639,639,639,639,63a,63a,63a",
   "fed0:63a,641,641,641,641,642,642,642,642,643,643,643,643,644,644,644,644,645,645,645,645,646",
   "fee6:646,646,646,647,647,647,647,648,648,649,649,64a,64a,64a,64a,644 622,644 622,644 623",
   "fef8:644 623,644 625,644 625,644 627,644 627;ff5f:2985,2986,3002,300c,300d,3001,30fb,30f2",
   "ff67:30a1,30a3,30a5,30a7,30a9,30e3,30e5,30e7,30c3,30fc,30a2,30a4,30a6,30a8,30aa,30ab,30ad",
   "ff78:30af,30b1,30b3,30b5,30b7,30b9,30bb,30bd,30bf,30c1,30c4,30c6,30c8;ff8b:30d2,30d5,30d8",
   "ff8e:30db;ff94:30e4,30e6;ff9c:30ef,30f3,3099,309a,3164;ffda:3161,3162,3163;ffe0:a2,a3,ac,af",
   "ffe4:a6,a5,20a9;ffe8:2502;ffed:25a0,25cb;1d15e:1d157 1d165,1d158 1d165,1d15f 1d16e",
   "1d161:1d15f 1d16f,1d15f 1d170,1d15f 1d171,1d15f 1d172;1d1bb:1d1b9 1d165,1d1ba 1d165",
   "1d1bd:1d1bb 1d16e,1d1bc 1d16e,1d1bb 1d16f,1d1bc 1d16f;1d49c:41;1d49e:43,44;1d4a2:47;1d4a5:4a",
   "1d4a6:4b;1d4bb:66;1d4c2:6d,6e;1d504:41,42;1d538:41,42;1d546:4f;1d6b9:3f4;1d6c1:2207",
   "1d6db:2202,3f5,3d1,3f0,3d5,3f1,3d6;1d6f3:3f4;1d6fb:2207;1d715:2202,3f5,3d1,3f0,3d5,3f1,3d6",
   "1d72d:3f4;1d735:2207;1d74f:2202,3f5,3d1,3f0,3d5,3f1,3d6;1d767:3f4;1d76f:2207;1d789:2202,3f5",
   "1d78b:3d1,3f0,3d5,3f1,3d6;1d7a1:3f4;1d7a9:2207;1d7c3:2202,3f5,3d1,3f0,3d5,3f1,3d6;2f800:4e3d",
   "2f801:4e38,4e41,20122,4f60,4fae,4fbb,5002,507a,5099,50e7,50cf,349e,2063a,514d,5154,5164,5177",
   "2f812:2051c,34b9,5167,518d,2054b,5197,51a4,4ecc,51ac,51b5,291df,51f5,5203,34df,523b,5246",
   "2f822:5272,5277,3515,52c7,52c9,52e4,52fa,5305,5306,5317,5349,5351,535a,5373,537d,537f,537f",
   "2f833:537f,20a2c,7070,53ca,53df,20b63,53eb,53f1,5406,549e,5438,5448,5468,54a2,54f6,5510,5553",
   "2f844:5563,5584,5584,5599,55ab,55b3,55c2,5716,5606,5717,5651,5674,5207,58ee,57ce,57f4,580d",
   "2f855:578b,5832,5831,58ac,214e4,58f2,58f7,5906,591a,5922,5962,216a8,216ea,59ec,5a1b,5a27",
   "2f865:59d8,5a66,36ee,2136a,5b08,5b3e,5b3e,219c8,5bc3,5bd8,5be7,5bf3,21b18,5bff,5c06,5f33",
   "2f875:5c22,3781,5c60,5c6e,5cc0,5c8d,21de4,5d43,21de6,5d6e,5d6b,5d7c,5de1,5de2,382f,5dfd,5e28",
   "2f886:5e3d,5e69,3862,22183,387c,5eb0,5eb3,5eb6,5eca,2a392,5efe,22331,22331,8201,5f22,5f22",
   "2f896:38c7,232b8,261da,5f62,5f6b,38e3,5f9a,5fcd,5fd7,5ff9,6081,393a,391c,6094,226d4,60c7",
   "2f8a6:6148,614c,614e,614c,617a,618e,61b2,61a4,61af,61de,61f2,61f6,6210,621b,625d,62b1,62d4",
   "2f8b7:6350,22b0c,633d,62fc,6368,6383,63e4,22bf1,6422,63c5,63a9,3a2e,6469,647e,649d,6477,3a6c",
   "2f8c8:654f,656c,2300a,65e3,66f8,6649,3b19,6691,3b08,3ae4,5192,5195,6700,669c,80ad,43d9,6717",
   "2f8d9:671b,6721,675e,6753,233c3,3b49,67fa,6785,6852,6885,2346d,688e,681f,6914,3b9d,6942,69a3",
   "2f8ea:69ea,6aa8,236a3,6adb,3c18,6b21,238a7,6b54,3c4e,6b72,6b9f,6bba,6bbb,23a8d,21d0b,23afa",
   "2f8fa:6c4e,23cbc,6cbf,6ccd,6c67,6d16,6d3e,6d77,6d41,6d69,6d78,6d85,23d1e,6d34,6e2f,6e6e,3d33",
   "2f90b:6ecb,6ec7,23ed1,6df9,6f6e,23f5e,23f8e,6fc6,7039,701e,701b,3d96,704a,707d,7077,70ad",
   "2f91b:20525,7145,24263,719c,43ab,7228,7235,7250,24608,7280,7295,24735,24814,737a,738b,3eac",
   "2f92b:73a5,3eb8,3eb8,7447,745c,7471,7485,74ca,3f1b,7524,24c36,753e,24c92,7570,2219f,7610",
   "2f93b:24fa1,24fb8,25044,3ffc,4008,76f4,250f3,250f2,25119,25133,771e,771f,771f,774a,4039,778b",
   "2f94b:4046,4096,2541d,784e,788c,78cc,40e3,25626,7956,2569a,256c5,798f,79eb,412f,7a40,7a4a",
   "2f95b:7a4f,2597c,25aa7,25aa7,7aae,4202,25bab,7bc6,7bc9,4227,25c80,7cd2,42a0,7ce8,7ce3,7d00",
   "2f96b:25f86,7d63,4301,7dc7,7e02,7e45,4334,26228,26247,4359,262d9,7f7a,2633e,7f95,7ffa,8005",
   "2f97b:264da,26523,8060,265a8,8070,2335f,43d5,80b2,8103,440b,813e,5ab5,267a7,267b5,23393",
   "2f98a:2339c,8201,8204,8f9e,446b,8291,828b,829d,52b3,82b1,82b3,82bd,82e6,26b3c,82e5,831d,8363",
   "2f99b:83ad,8323,83bd,83e7,8457,8353,83ca,83cc,83dc,26c36,26d6b,26cd5,452b,84f1,84f3,8516",
   "2f9ab:273ca,8564,26f2c,455d,4561,26fb1,270d2,456b,8650,865c,8667,8669,86a9,8688,870e,86e2",
   "2f9bb:8779,8728,876b,8786,4d57,87e1,8801,45f9,8860,8863,27667,88d7,88de,4635,88fa,34bb,278ae",
   "2f9cc:27966,46be,46c7,8aa0,8aed,8b8a,8c55,27ca8,8cab,8cc1,8d1b,8d77,27f2f,20804,8dcb,8dbc",
   "2f9dc:8df0,208de,8ed4,8f38,285d2,285ed,9094,90f1,9111,2872e,911b,9238,92d7,92d8,927c,93f9",
   "2f9ec:9415,28bfa,958b,4995,95b7,28d77,49e6,96c3,5db2,9723,29145,2921a,4a6e,4a76,97e0,2940a",
   "2f9fc:4ab2,29496,980b,980b,9829,295b6,98e2,4b33,9929,99a7,99c2,99fe,4bce,29b30,9b12,9c40",
   "2fa0c:9cfd,4cce,4ced,9d67,2a0ce,4cf8,2a105,2a20e,2a291,9ebb,4d56,9ef9,9efe,9f05,9f0f,9f16",
   "2fa1c:9f3b,2a600"]

/-- Ranges of characters that stand, one by one, for the characters from a third on. -/
def expansionRuns : List (Nat × Nat × Nat) :=
  [(0x2074, 0x2079, 0x34), (0x2080, 0x2089, 0x30), (0x2135, 0x2138, 0x5d0),
   (0x2460, 0x2468, 0x31), (0x24b6, 0x24cf, 0x41), (0x24d0, 0x24e9, 0x61),
   (0x313a, 0x313f, 0x11b0), (0x3145, 0x314e, 0x1109), (0x314f, 0x3163, 0x1161),
   (0x3178, 0x317c, 0x112b), (0x3269, 0x326d, 0x110e), (0x32e4, 0x32e9, 0x30ca),
   (0x32ee, 0x32f2, 0x30de), (0x32f5, 0x32fa, 0x30e8), (0x32fb, 0x32fe, 0x30ef),
   (0xfe41, 0xfe44, 0x300c), (0xff01, 0xff5e, 0x21), (0xff85, 0xff8a, 0x30ca),
   (0xff8f, 0xff93, 0x30de), (0xff96, 0xff9b, 0x30e8), (0xffa1, 0xffbe, 0x3131),
   (0xffc2, 0xffc7, 0x314f), (0xffca, 0xffcf, 0x3155), (0xffd2, 0xffd7, 0x315b),
   (0xffe9, 0xffec, 0x2190), (0x1d400, 0x1d419, 0x41), (0x1d41a, 0x1d433, 0x61),
   (0x1d434, 0x1d44d, 0x41), (0x1d44e, 0x1d454, 0x61), (0x1d456, 0x1d467, 0x69),
   (0x1d468, 0x1d481, 0x41), (0x1d482, 0x1d49b, 0x61), (0x1d4a9, 0x1d4ac, 0x4e),
   (0x1d4ae, 0x1d4b5, 0x53), (0x1d4b6, 0x1d4b9, 0x61), (0x1d4bd, 0x1d4c0, 0x68),
   (0x1d4c5, 0x1d4cf, 0x70), (0x1d4d0, 0x1d4e9, 0x41), (0x1d4ea, 0x1d503, 0x61),
   (0x1d507, 0x1d50a, 0x44), (0x1d50d, 0x1d514, 0x4a), (0x1d516, 0x1d51c, 0x53),
   (0x1d51e, 0x1d537, 0x61), (0x1d53b, 0x1d53e, 0x44), (0x1d540, 0x1d544, 0x49),
   (0x1d54a, 0x1d550, 0x53), (0x1d552, 0x1d56b, 0x61), (0x1d56c, 0x1d585, 0x41),
   (0x1d586, 0x1d59f, 0x61), (0x1d5a0, 0x1d5b9, 0x41), (0x1d5ba, 0x1d5d3, 0x61),
   (0x1d5d4, 0x1d5ed, 0x41), (0x1d5ee, 0x1d607, 0x61), (0x1d608, 0x1d621, 0x41),
   (0x1d622, 0x1d63b, 0x61), (0x1d63c, 0x1d655, 0x41), (0x1d656, 0x1d66f, 0x61),
   (0x1d670, 0x1d689, 0x41), (0x1d68a, 0x1d6a3, 0x61), (0x1d6a8, 0x1d6b8, 0x391),
   (0x1d6ba, 0x1d6c0, 0x3a3), (0x1d6c2, 0x1d6da, 0x3b1), (0x1d6e2, 0x1d6f2, 0x391),
   (0x1d6f4, 0x1d6fa, 0x3a3), (0x1d6fc, 0x1d714, 0x3b1), (0x1d71c, 0x1d72c, 0x391),
   (0x1d72e, 0x1d734, 0x3a3), (0x1d736, 0x1d74e, 0x3b1), (0x1d756, 0x1d766, 0x391),
   (0x1d768, 0x1d76e, 0x3a3), (0x1d770, 0x1d788, 0x3b1), (0x1d790, 0x1d7a0, 0x391),
   (0x1d7a2, 0x1d7a8, 0x3a3), (0x1d7aa, 0x1d7c2, 0x3b1), (0x1d7ce, 0x1d7d7, 0x30),
   (0x1d7d8, 0x1d7e1, 0x30), (0x1d7e2, 0x1d7eb, 0x30), (0x1d7ec, 0x1d7f5, 0x30),
   (0x1d7f6, 0x1d7ff, 0x30)]

/-- What single characters are made of. -/
def decompositions : Std.HashMap Nat (List Nat) :=
  Std.HashMap.ofList (tableEntries pairTable ++ tableEntries expansionTable)

/-- The characters that pairs are put together to. -/
def compositions : Std.HashMap (List Nat) Nat :=
  Std.HashMap.ofList
    ((tableEntries pairTable ++ tableEntries laterPairTable).map fun (code, pair) => (pair, code))

/-! ## Syllables

A Korean syllable is made of a leading consonant, a vowel and perhaps a trailing consonant, in
the order of the three. -/

/-- The first syllable. -/
def firstSyllable : Nat := 0xac00

/-- The count of syllables. -/
def syllableCount : Nat := 19 * 21 * 28

/-- What a syllable is made of. -/
def syllableParts? (code : Nat) : Option (List Nat) :=
  if firstSyllable ≤ code ∧ code < firstSyllable + syllableCount then
    let index := code - firstSyllable
    let trailing := if index % 28 = 0 then [] else [0x11a7 + index % 28]
    some ([0x1100 + index / 588, 0x1161 + index % 588 / 28] ++ trailing)
  else none

/-- The syllable of a leading consonant and a vowel, or of such a syllable and a trailing
consonant. -/
def syllable? (a b : Nat) : Option Nat :=
  if 0x1100 ≤ a ∧ a < 0x1113 ∧ 0x1161 ≤ b ∧ b < 0x1176 then
    some (firstSyllable + (a - 0x1100) * 588 + (b - 0x1161) * 28)
  else if (syllableParts? a).isSome ∧ (a - firstSyllable) % 28 = 0 ∧ 0x11a7 < b ∧ b < 0x11c3 then
    some (a + (b - 0x11a7))
  else none

/-! ## Taking apart and putting together -/

/-- What a code point is made of at first sight. -/
def parts? (code : Nat) : Option (List Nat) :=
  match decompositions[code]?, syllableParts? code with
  | some parts, _ => some parts
  | none, some parts => some parts
  | none, none =>
    (expansionRuns.find? fun (first, last, _) => first ≤ code && code ≤ last).map
      fun (first, _, start) => [start + (code - first)]

/-- What a code point is made of, down to a given depth. -/
def decomposeTo : Nat → Nat → List Nat
  | 0, code => [code]
  | depth + 1, code =>
    match parts? code with
    | some parts => parts.flatMap (decomposeTo depth)
    | none => [code]

/-- What a code point is made of; no decomposition is deeper than this. -/
def decompose (code : Nat) : List Nat := if code < 0xa0 then [code] else decomposeTo 8 code

/-- What a pair of code points is put together to. -/
def pairUp? (a b : Nat) : Option Nat :=
  match compositions[[a, b]]? with
  | some code => some code
  | none => syllable? a b

end LockPrefetch.Text
